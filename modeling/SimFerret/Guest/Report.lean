import SimFerret.Guest.Refinement

/-!
# SimFerret.Guest.Report — the guest and the host compute the same report

The agent keeps only the frames that its report looks at, and a host that has received every frame evaluates
them all.

* `Writes`: what an operation of the agent does to the two lists; `quiet` operations emit nothing that is reported.
* `writing_run`: a whole run.
* `run_check_report`: the report of a check, evaluated by the guest, by the host before it and again on the full
  stream.
-/

namespace SimFerret.Guest

open Action

/-- The agent retains exactly the frames of the network fixture. -/
def Retains (g : Agent) : Prop := g.events = g.emitted.filter fun frame => isAssertionEvent frame.event

/-- The agent only adds frames and keeps what it retains; a quiet operation adds none that the report looks at. -/
structure Writes (quiet : Prop) (g g' : Agent) : Prop where
  adds : ∃ more, g'.emitted = g.emitted ++ more ∧ (quiet → ∀ frame ∈ more, frame.event.isReported = false)
  retains : Retains g → Retains g'

section Writes

variable {quiet : Prop} {sha256 : Sha256} {command : Nat} {g g' : Agent}

theorem Writes.refl (g : Agent) : Writes quiet g g := ⟨⟨[], (List.append_nil _).symm, fun _ _ h => by cases h⟩, id⟩

theorem Writes.trans {g'' : Agent} (h : Writes quiet g g') (h' : Writes quiet g' g'') : Writes quiet g g'' := by
  obtain ⟨more, hmore, hquiet⟩ := h.adds
  obtain ⟨more', hmore', hquiet'⟩ := h'.adds
  refine ⟨⟨more ++ more', by rw [hmore', hmore, List.append_assoc], fun hq frame hframe => ?_⟩,
    fun hg => h'.retains (h.retains hg)⟩
  rcases List.mem_append.mp hframe with hframe | hframe
  · exact hquiet hq frame hframe
  · exact hquiet' hq frame hframe

/-- An operation that leaves both lists alone. -/
theorem Writes.same (hemitted : g'.emitted = g.emitted) (hevents : g'.events = g.events) : Writes quiet g g' := by
  refine ⟨⟨[], by rw [hemitted, List.append_nil], fun _ _ h => by cases h⟩, fun hg => ?_⟩
  rw [Retains, hevents, hemitted]
  exact hg

/-- Every run of the operation that returns writes. -/
def Writing (quiet : Prop) {α : Type} (x : Act α) : Prop := Along (Writes quiet) x

theorem Writing.bind {α β : Type} {x : Act α} {f : α → Act β} (hx : Writing quiet x)
    (hf : ∀ a, Writing quiet (f a)) : Writing quiet (x >>= f) := Along.bind (fun h h' => h.trans h') hx hf

theorem Writing.pure {α : Type} (a : α) : Writing quiet (pure a : Act α) := Along.pure Writes.refl a

theorem writing_get : Writing quiet (get : Act Agent) := by
  intro g a g' h
  rw [(get_ok.mp h).2]
  exact Writes.refl g

theorem writing_modify {f : Agent → Agent} (hemitted : ∀ g, (f g).emitted = g.emitted)
    (hevents : ∀ g, (f g).events = g.events) : Writing quiet (modify f : Act Unit) := by
  intro g u g' h
  rw [modify_ok.mp h]
  exact Writes.same (hemitted g) (hevents g)

theorem writing_lift {α : Type} (x : IoResult α) : Writing quiet (liftM x : Act α) := by
  intro g a g' h
  rw [(lift_ok.mp h).2]
  exact Writes.refl g

theorem writing_emit {event : Event} (hevent : quiet → event.isReported = false) :
    Writing quiet (emit command event) := by
  intro g u g' h
  obtain ⟨_, -, h⟩ := bind_eq_ok.mp h
  cases h
  refine ⟨⟨_, rfl, fun hq frame hframe => ?_⟩, fun hg => ?_⟩
  · rw [List.mem_singleton.mp hframe]
    exact hevent hq
  · show (if isAssertionEvent event = true then _ else _) = _
    rw [List.filter_append, ← hg, List.filter_singleton]
    split
    · rename_i hkept
      rw [show isAssertionEvent (eventFrame g.nextEventId command event).event = true from hkept, cond_true]
    · rename_i hkept
      have hdropped : isAssertionEvent (eventFrame g.nextEventId command event).event = false :=
        Bool.eq_false_iff.mpr hkept
      rw [hdropped, cond_false, List.append_nil]

theorem writing_emitAll : ∀ {events : List Event}, (∀ event ∈ events, event.isReported = false) →
    Writing quiet (emitAll command events)
  | [], _ => Writing.pure _
  | event :: events, h => by
    refine (writing_emit fun _ => h event List.mem_cons_self).bind fun _ => ?_
    exact writing_emitAll fun e he => h e (List.mem_cons_of_mem _ he)

/-! ## The runtime -/

/-- No event is one that the report looks at. -/
def Unreported (events : List Event) : Prop := ∀ event ∈ events, event.isReported = false

theorem Unreported.append {events more : List Event} (h : Unreported events) (h' : Unreported more) :
    Unreported (events ++ more) := by
  intro event hevent
  rcases List.mem_append.mp hevent with hevent | hevent
  · exact h event hevent
  · exact h' event hevent

theorem unreported_singleton {event : Event} (h : event.isReported = false) : Unreported [event] := by
  intro e he
  rw [List.mem_singleton.mp he]
  exact h

/-- A service collects only process and output events. -/
theorem invariant_unreported (limits : RuntimeLimits) : Invariant limits fun s => Unreported s.events where
  os _ _ _ hs := hs
  flush s hs := by
    obtain ⟨pending, stdin, os, heq, -⟩ := flushInput_eq s
    rw [heq]
    exact hs
  eof _ _ hs := hs
  output _ _ _ _ _ hs := hs.append (unreported_singleton rfl)
  reap _ _ _ _ _ hs := hs

theorem cleaned_unreported {s s' : Service} {r : IoResult Unit} (hs : Unreported s.events)
    (h : Invariant.Cleaned sha256 (fun s => Unreported s.events) s r s') : Unreported s'.events := by
  cases h with
  | already => exact hs
  | failed _ _ _ hs' => exact hs'
  | completed s1 exit _ hs1 _ =>
    refine hs1.append fun event hevent => ?_
    rcases List.mem_pair.mp hevent with rfl | rfl <;> rfl

/-- The operation answers only with process and output events. -/
def Silent (operation : Supervise (List Event)) : Prop :=
  ∀ rt os events rt' os', operation (rt, os) = (.ok events, rt', os') → Unreported events

theorem silent_poll : Silent (poll sha256) := by
  intro rt os events rt' os' h
  unfold poll at h
  split at h
  · cases h
    exact fun _ h => by cases h
  · rename_i a _
    rcases hserve : serve sha256 rt.limits { active := a, os := os } with ⟨_ | u, s⟩
    · rw [hserve] at h
      cases h
    · rw [hserve] at h
      have hevents : Unreported s.events := by
        rcases (invariant_unreported rt.limits).serve sha256 hserve (fun _ h => by cases h) fun _ _ hs => hs
          with hs | ⟨s1, hs1, -, hclean⟩
        · exact hs
        · exact cleaned_unreported hs1 hclean
      dsimp only at h
      split at h
      · rw [(release_ok h).1]
        exact hevents
      · cases h
        exact hevents

theorem silent_shutdown : Silent (shutdown sha256) := by
  intro rt os events rt' os' h
  unfold shutdown at h
  split at h
  · cases h
    exact fun _ h => by cases h
  · rename_i a _
    rcases hserve : killAndReap sha256 rt.limits { active := a, os := os } with ⟨_ | u, s⟩
    · rw [hserve] at h
      cases h
    · rw [hserve] at h
      obtain ⟨b, s0, h0, k0⟩ := Attempt.bind_ok.mp hserve
      cases h0
      have hP := invariant_unreported rt.limits
      have hevents : Unreported s.events := by
        dsimp only at k0
        split at k0
        · obtain ⟨_, s1, h1, k1⟩ := Attempt.bind_ok.mp k0
          have hs1 := hP.signalMembers.of_run h1 (fun _ h => by cases h)
          exact cleaned_unreported hs1 (hP.cleanup sha256 k1 hs1)
        · have hs0 : Unreported ({ active := a, os := os } : Service).events := fun _ h => by cases h
          exact cleaned_unreported hs0 (hP.cleanup sha256 k0 hs0)
      rw [(release_ok h).1]
      exact hevents

theorem silent_start (invocation : Nat) (identity : Workload.LaunchIdentity) :
    Silent (start invocation identity) := by
  intro rt os events rt' os' h
  unfold start at h
  split at h
  · rename_i event rt1 os1 hinner
    cases h
    obtain ⟨-, ⟨_, herror, -⟩ | ⟨pid, -, hok, -⟩⟩ := startInner_launched hinner
    · cases herror
    · cases hok
      exact unreported_singleton rfl
  · cases h
    exact unreported_singleton rfl

theorem silent_stdinWrite (invocation offset : Nat)
    (bytes : Text) : Silent (stdinWrite invocation offset bytes) := by
  intro rt os events rt' os' h
  obtain ⟨data, a, -, -, -, hflush⟩ := stdinWrite_ok h
  obtain ⟨a', -, rfl, -⟩ := flushActive_ok hflush
  exact unreported_singleton rfl

theorem silent_stdinEof (invocation : Nat) : Silent (stdinEof invocation) := by
  intro rt os events rt' os' h
  obtain ⟨a, -, -, -, hflush⟩ := stdinEof_ok h
  obtain ⟨a', -, rfl, -⟩ := flushActive_ok hflush
  exact unreported_singleton rfl

theorem silent_terminate (invocation : Nat) : Silent (terminate invocation) := by
  intro rt os events rt' os' h
  obtain ⟨a, -, rfl, -⟩ := terminate_ok h
  exact unreported_singleton rfl

/-! ## Commands, turns and runs -/

/-- **An operation of the runtime** is quiet. -/
theorem writing_supervise {rt : Runtime} {operation : Supervise (List Event)} (hop : Silent operation) :
    Writing quiet (supervise command rt operation) := by
  intro g u g' h
  unfold supervise at h
  obtain ⟨events, g1, h1, h2⟩ := bind_ok.mp h
  split at h1
  · rename_i events' rt' os' hrun
    cases h1
    have hsame : Writes quiet g { g with runtime := some rt', os := os' } := Writes.same rfl rfl
    exact hsame.trans (writing_emitAll (hop _ _ _ _ _ hrun) _ _ _ h2)
  · cases h1

theorem writing_serviceRuntime : Writing quiet (serviceRuntime sha256) := by
  intro g u g' h
  unfold serviceRuntime at h
  split at h
  · cases h
    exact Writes.refl _
  · exact writing_supervise silent_poll _ _ _ h

theorem writing_shutdownRuntime : Writing quiet (shutdownRuntime sha256) := by
  intro g u g' h
  unfold shutdownRuntime at h
  split at h
  · cases h
    exact Writes.refl _
  · exact writing_supervise silent_shutdown _ _ _ h

theorem writing_withRuntime {operation : Supervise (List Event)} (hop : Silent operation) :
    Writing quiet (withRuntime command operation) := by
  intro g u g' h
  unfold withRuntime at h
  split at h
  · cases h
  · exact writing_supervise hop _ _ _ h

end Writes

/-- Whether the answers to a command are none that the report looks at. -/
def isQuiet : Command → Bool
  | .configureNetwork .. => false
  | .activateOutage .. => false
  | .restoreNetwork .. => false
  | .request .. => false
  | _ => true

section Run

variable {quiet : Prop} {sha256 : Sha256} {command : Nat} {g g' : Agent} {result : Option (IoResult Unit)}

theorem writing_requireNetwork : Writing quiet requireNetwork := by
  intro g u g' h
  rw [requireNetwork_ok h]
  exact Writes.refl g

theorem writing_network : Writing quiet network := by
  intro g u g' h
  obtain ⟨_, -, h⟩ := bind_eq_ok.mp h
  cases h
  exact Writes.same rfl rfl

theorem writing_configureNetwork (interface' cidr gateway' : Text) (hloud : ¬ quiet) :
    Writing quiet (configureNetwork command interface' cidr gateway') := by
  refine (writing_lift _).bind fun _ => writing_get.bind fun _ => (writing_lift _).bind fun _ => ?_
  refine writing_network.bind fun _ => (writing_modify (fun _ => by rfl) fun _ => by rfl).bind fun _ => ?_
  exact writing_emit fun h => absurd h hloud

theorem writing_activateOutage (peer : Text) (hloud : ¬ quiet) : Writing quiet (activateOutage command peer) := by
  refine writing_requireNetwork.bind fun _ => (writing_lift _).bind fun _ => writing_get.bind fun _ => ?_
  refine (writing_lift _).bind fun _ => writing_network.bind fun _ => ?_
  exact (writing_modify (fun _ => by rfl) fun _ => by rfl).bind fun _ => writing_emit fun h => absurd h hloud

theorem writing_restoreNetwork (peer : Text) (hloud : ¬ quiet) : Writing quiet (restoreNetwork command peer) := by
  refine writing_requireNetwork.bind fun _ => (writing_lift _).bind fun _ => writing_get.bind fun _ => ?_
  refine (writing_lift _).bind fun _ => writing_network.bind fun _ => ?_
  exact (writing_modify (fun _ => by rfl) fun _ => by rfl).bind fun _ => writing_emit fun h => absurd h hloud

theorem writing_request (requestId payload : Text) (phase : RequestPhase) (hloud : ¬ quiet) :
    Writing quiet (request command requestId payload phase) := by
  refine writing_requireNetwork.bind fun _ => (writing_lift _).bind fun _ => ?_
  refine (writing_emit fun h => absurd h hloud).bind fun _ => Writing.bind ?_ fun _ => writing_emit fun h =>
    absurd h hloud
  intro g a g' h
  cases h
  exact Writes.same rfl rfl

theorem writing_check (outageEventBound livenessEventBound : Nat) :
    Writing quiet (check command outageEventBound livenessEventBound) := by
  refine writing_get.bind fun _ => (writing_modify (fun _ => by rfl) fun _ => by rfl).bind fun _ => ?_
  exact writing_emit fun _ => rfl

theorem writing_startWorkload (invocation : Nat) (identity : Workload.LaunchIdentity) :
    Writing quiet (startWorkload command invocation identity) := by
  intro g u g' h
  unfold startWorkload at h
  split at h
  · exact writing_supervise (silent_start invocation identity) _ _ _ h
  · exact writing_emitAll (unreported_singleton rfl) _ _ _ h

theorem writing_shutdownAgent : Writing quiet (shutdownAgent sha256 command) := by
  refine writing_get.bind fun _ => (writing_lift _).bind fun _ => ?_
  exact writing_shutdownRuntime.bind fun _ => writing_emit fun _ => rfl

/-- **Every command** writes, and quietly unless it is a command of the network fixture. -/
theorem writing_dispatch (c : Command) : Writing (isQuiet c = true) (dispatch sha256 command c) := by
  have hthen : ∀ {quiet : Prop} {x : Act Unit} {b : Bool}, Writing quiet x → Writing quiet (do x; return b) :=
    fun hx => hx.bind fun _ => Writing.pure _
  cases c with
  | configureNetwork interface' cidr gateway' => exact hthen (writing_configureNetwork _ _ _ Bool.false_ne_true)
  | activateOutage peer => exact hthen (writing_activateOutage peer Bool.false_ne_true)
  | restoreNetwork peer => exact hthen (writing_restoreNetwork peer Bool.false_ne_true)
  | request requestId payload phase => exact hthen (writing_request _ _ _ Bool.false_ne_true)
  | check outageEventBound livenessEventBound => exact hthen (writing_check _ _)
  | start invocation identity => exact hthen (writing_startWorkload _ _)
  | stdinWrite invocation offset bytes => exact hthen (writing_withRuntime (silent_stdinWrite _ _ _))
  | stdinEof invocation => exact hthen (writing_withRuntime (silent_stdinEof _))
  | terminate invocation => exact hthen (writing_withRuntime (silent_terminate _))
  | shutdown => exact hthen writing_shutdownAgent

theorem Writing.weaken {quiet' : Prop} {α : Type} {x : Act α} (hx : Writing quiet x) (h : quiet' → quiet) :
    Writing quiet' x := by
  intro g a g' hrun
  have hw := hx g a g' hrun
  obtain ⟨more, hmore, hquiet⟩ := hw.adds
  exact ⟨⟨more, hmore, fun hq => hquiet (h hq)⟩, hw.retains⟩

/-- **One turn** writes. -/
theorem writing_turn {t : Turn} (hquiet : quiet → ∀ c ∈ commandsOf [t], isQuiet c.command = true) :
    Writing quiet (turn sha256 t) := by
  cases t with
  | service => exact writing_serviceRuntime.bind fun _ => Writing.pure _
  | receive c =>
    refine (writing_lift _).bind fun _ => (writing_modify (fun _ => by rfl) fun _ => by rfl).bind fun _ => ?_
    refine ((writing_dispatch c.command).weaken fun hq => ?_).bind fun _ => Writing.pure _
    exact hquiet hq c (List.mem_singleton_self c)
  | closed => exact writing_get.bind fun _ => writing_shutdownRuntime.bind fun _ => Writing.pure _

/-- **A run** writes, and quietly if its commands do. -/
theorem writing_run : ∀ {turns : List Turn}, (quiet → ∀ c ∈ commandsOf turns, isQuiet c.command = true) →
    Writing quiet (run sha256 turns)
  | [], _ => Writing.pure _
  | t :: turns, hquiet => by
    have hsplit : commandsOf (t :: turns) = commandsOf [t] ++ commandsOf turns :=
      List.filterMap_append (l := [t])
    rw [hsplit] at hquiet
    refine (writing_turn fun hq c hc => hquiet hq c (List.mem_append_left _ hc)).bind fun r => ?_
    cases r with
    | some r => exact Writing.pure _
    | none => exact writing_run fun hq c hc => hquiet hq c (List.mem_append_right _ hc)

end Run

theorem map_bare_eq {raw frames : List EventFrame}
    (h : raw.map EventFrame.normalize = frames.map EventFrame.normalize) :
    raw.map EventFrame.bare = frames.map EventFrame.bare := by
  have hbare := congrArg (List.map NormalizedEvent.frame) h
  rw [List.map_map, List.map_map] at hbare
  exact hbare

/-- The answer to a check. -/
theorem check_ok {g g' : Agent} {command outageEventBound livenessEventBound : Nat} {u : Unit}
    (h : check command outageEventBound livenessEventBound g = .ok (u, g')) :
    ∃ report, g'.emitted = g.emitted ++ [eventFrame g.nextEventId command (.assertionsEvaluated report)] ∧
      report = evaluate g.events outageEventBound livenessEventBound := by
  obtain ⟨t, s1, h1, k1⟩ := bind_ok.mp h
  obtain ⟨rfl, rfl⟩ := get_ok.mp h1
  obtain ⟨_, s2, h2, k2⟩ := bind_ok.mp k1
  have hemits := emit_emits k2
  rw [modify_ok.mp h2] at hemits
  exact ⟨_, hemits.emitted, rfl⟩

/-- **The guest and the host compute the same report.**  After any turns of an agent, the answer to a check
carries the evaluation of all frames emitted before it, also as a host received them; and as long as no further
network command follows, evaluating the full stream gives the same report again, also from its recorded form. -/
theorem run_check_report (sha256 : Sha256) (runtime : Option Runtime) (os : Os) {turns : List Turn} {g1 g2 : Agent}
    {version command outageEventBound livenessEventBound : Nat} {result : Option (IoResult Unit)}
    (hbefore : run sha256 turns { runtime := runtime, os := os } = .ok (none, g1))
    (hcheck : turn sha256 (.receive ⟨version, command, .check outageEventBound livenessEventBound⟩) g1 =
      .ok (result, g2)) :
    ∃ report,
      g2.emitted = g1.emitted ++ [eventFrame g1.nextEventId command (.assertionsEvaluated report)] ∧
      report = evaluate g1.emitted outageEventBound livenessEventBound ∧
      (∀ raw : List EventFrame, raw.map EventFrame.normalize = g1.emitted.map EventFrame.normalize →
        evaluate raw outageEventBound livenessEventBound = report) ∧
      ∀ later result' g3, (∀ c ∈ commandsOf later, isQuiet c.command = true) →
        run sha256 later g2 = .ok (result', g3) →
        ∀ raw : List EventFrame, raw.map EventFrame.normalize = g3.emitted.map EventFrame.normalize →
          evaluate raw outageEventBound livenessEventBound = report := by
  have hraw : ∀ {raw frames : List EventFrame}, raw.map EventFrame.normalize = frames.map EventFrame.normalize →
      evaluate raw outageEventBound livenessEventBound = evaluate frames outageEventBound livenessEventBound := by
    intro raw frames h
    rw [← evaluate_normalize, map_bare_eq h, evaluate_normalize]
  have hretains : Retains g1 := ((writing_run (fun h : False => h.elim)) _ _ _ hbefore).retains rfl
  have hguest : evaluate g1.events outageEventBound livenessEventBound =
      evaluate g1.emitted outageEventBound livenessEventBound := by
    rw [hretains]
    refine evaluate_filter (fun frame hframe => ?_) g1.emitted _ _
    cases hevent : frame.event <;> rw [hevent] at hframe <;> first | rfl | cases hframe
  obtain ⟨_, s1, h1, k1⟩ := bind_ok.mp hcheck
  rw [(lift_ok.mp h1).2] at k1
  obtain ⟨_, s2, h2, k2⟩ := bind_ok.mp k1
  obtain ⟨_, s3, h3, k3⟩ := bind_ok.mp k2
  obtain ⟨-, rfl⟩ := pure_ok.mp k3
  obtain ⟨_, s4, h4, k4⟩ := bind_ok.mp h3
  obtain ⟨-, rfl⟩ := pure_ok.mp k4
  obtain ⟨report, hemitted, hreport⟩ := check_ok h4
  rw [modify_ok.mp h2] at hemitted hreport
  refine ⟨report, hemitted, hreport.trans hguest, fun raw heq => ?_,
    fun later result' g3 hquiet hlater raw heq => ?_⟩
  · rw [hraw heq, hreport, hguest]
  · obtain ⟨more, hmore, hsilent⟩ := (writing_run (fun _ : True => hquiet) _ _ _ hlater).adds
    have hframes : ∀ frame ∈ eventFrame g1.nextEventId command (.assertionsEvaluated report) :: more,
        frame.event.isReported = false := by
      intro frame hframe
      rcases List.mem_cons.mp hframe with rfl | hframe
      · rfl
      · exact hsilent trivial frame hframe
    have hsame := @evaluate_append g1.emitted _ hframes outageEventBound livenessEventBound
    rw [hraw heq, hmore, hemitted, List.append_assoc]
    exact hsame.trans (hreport.trans hguest).symm

/-- A peer that answers the first request, and refuses the one during the outage. -/
def fixtureOs : Os :=
    { responses := [.ok ("r0", "p0"), .error (⟨.permissionDenied, ""⟩, some 13), .ok ("r2", "p2")] }

/-- A session of the network fixture with a start that has no runtime and a first check in between. -/
def fixtureTurns : List Turn :=
  [.receive ⟨1, 1, .configureNetwork "eth0" "10.0.2.15/24" "10.0.2.2"⟩,
    .receive ⟨1, 2, .request "r0" "p0" .preOutage⟩,
    .receive ⟨1, 3, .start 1 sessionLaunch⟩, .receive ⟨1, 4, .activateOutage "10.0.2.2/32"⟩,
    .receive ⟨1, 5, .request "r1" "p1" .outage⟩, .receive ⟨1, 6, .check 1 2⟩,
    .receive ⟨1, 7, .restoreNetwork "10.0.2.2/32"⟩, .service, .receive ⟨1, 8, .request "r2" "p2" .recovery⟩]

theorem run_check_report_fixture : ∃ g1 g2 report,
    run childSha256 fixtureTurns { os := fixtureOs } = .ok (none, g1) ∧
    turn childSha256 (.receive ⟨1, 9, .check 1 2⟩) g1 = .ok (none, g2) ∧ g1.emitted.length = 11 ∧
    report.passed = true ∧ report = evaluate g1.emitted 1 2 ∧
    g2.emitted = g1.emitted ++ [eventFrame 12 9 (.assertionsEvaluated report)] := by
  have hfirst : (run childSha256 fixtureTurns { os := fixtureOs }).toOption.map
      (fun r => (r.1.isNone, r.2.emitted.length, r.2.nextEventId, (evaluate r.2.emitted 1 2).passed,
        (turn childSha256 (.receive ⟨1, 9, .check 1 2⟩) r.2).toOption.map (·.1.isNone))) =
      some (true, 11, 12, true, some true) := by
    decide +kernel
  obtain ⟨⟨result, g1⟩, hg1, hfacts⟩ := exists_ok_of_map hfirst
  simp only [Prod.mk.injEq] at hfacts
  obtain ⟨hresult, hlength, hnext, hpassed, hsecond⟩ := hfacts
  obtain ⟨⟨result', g2⟩, hg2, hresult'⟩ := exists_ok_of_map hsecond
  rw [Option.isNone_iff_eq_none] at hresult hresult'
  dsimp only at hresult hresult'
  subst hresult hresult'
  obtain ⟨report, hemitted, hreport, -⟩ := run_check_report childSha256 none fixtureOs hg1 hg2
  refine ⟨g1, g2, report, hg1, hg2, hlength, by rw [hreport]; exact hpassed, hreport, ?_⟩
  rw [hemitted, hnext]

end SimFerret.Guest
