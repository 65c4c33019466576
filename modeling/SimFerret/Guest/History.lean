import SimFerret.Guest.Slot

/-!
# SimFerret.Guest.History — one invocation at a time, behind a barrier

* `Orderly`: what the returned events of a run say together; `Move.orderly` is the step and `performAll_orderly`
  the run.
* `performAll_oneAtATime`: the slot and its events over every run of the runtime.
* `performAll_reported`: when the end of an invocation is reported.
-/

namespace SimFerret.Guest

open Workload

/-- Every exit is followed at once by the cleanup of its invocation. -/
def Followed : List Event → Prop
  | [] => True
  | event :: events =>
    (∀ i, exitedIn event = some i → ∃ reaped rest, events = .cleanupComplete i reaped :: rest) ∧ Followed events

theorem Followed.append : ∀ {events more : List Event}, Followed events → Followed more → Followed (events ++ more)
  | [], _, _, h' => h'
  | event :: events, more, h, h' => by
    refine ⟨fun i hi => ?_, h.2.append h'⟩
    obtain ⟨reaped, rest, heq⟩ := h.1 i hi
    exact ⟨reaped, rest ++ more, by rw [heq]; rfl⟩

theorem followed_of_none : ∀ {events : List Event}, (∀ event ∈ events, exitedIn event = none) → Followed events
  | [], _ => trivial
  | event :: events, h => by
    refine ⟨fun i hi => ?_, followed_of_none fun e he => h e (List.mem_cons_of_mem _ he)⟩
    rw [h event List.mem_cons_self] at hi
    cases hi

theorem Followed.split : ∀ {before after : List Event} {event : Event} {i : Nat},
    Followed (before ++ event :: after) → exitedIn event = some i → ∃ reaped rest,
      after = .cleanupComplete i reaped :: rest
  | [], _, _, i, h, hi => h.1 i hi
  | _ :: _, _, _, _, h, hi => Followed.split h.2 hi

/-- An event that comes after the cleanup of an invocation does not report its course. -/
def Silenced (event later : Event) : Prop := ∀ i, cleanedIn event = some i → Event.course? later ≠ some i

theorem course_of_started {event : Event} {i : Nat} (h : startedIn event = some i) :
    Event.course? event = some i := by
  cases event <;> first | exact h | cases h

theorem course_of_cleaned {event : Event} {i : Nat} (h : cleanedIn event = some i) :
    Event.course? event = some i := by
  cases event <;> first | exact h | cases h

/-- What the events returned so far say, with the state they led to. -/
structure Orderly (s : Runtime × Os) (events : List Event) : Prop where
  tidy : Tidy s
  known : ∀ event ∈ events, ∀ i, Event.course? event = some i → ∃ last, s.1.lastInvocation = some last ∧ i ≤ last
  ended : ∀ event ∈ events, ∀ i, cleanedIn event = some i → ∀ a, s.1.active = some a → a.id ≠ i
  started : (events.filterMap startedIn).Pairwise (· < ·)
  followed : Followed events
  silenced : events.Pairwise Silenced

section Step

variable {s s' : Runtime × Os} {events : List Event}

theorem orderly_begin (h : Tidy s) : Orderly s [] :=
  ⟨h, fun _ he => absurd he List.not_mem_nil, fun _ he => absurd he List.not_mem_nil, .nil, trivial, .nil⟩

/-- The events of one more operation. -/
structure Extends (s s' : Runtime × Os) (events more : List Event) : Prop where
  last : ∀ last, s.1.lastInvocation = some last → ∃ last', s'.1.lastInvocation = some last' ∧ last ≤ last'
  known : ∀ event ∈ more, ∀ i, Event.course? event = some i → ∃ last, s'.1.lastInvocation = some last ∧ i ≤ last
  silenced : ∀ event ∈ events, ∀ later ∈ more, Silenced event later
  ended : ∀ event ∈ events ++ more, ∀ i, cleanedIn event = some i → ∀ a, s'.1.active = some a → a.id ≠ i
  fresh : ∀ event ∈ more, ∀ i, startedIn event = some i → ∀ last, s.1.lastInvocation = some last → last < i
  started : (more.filterMap startedIn).Pairwise (· < ·)
  followed : Followed more
  within : more.Pairwise Silenced

theorem Orderly.extend {more : List Event} (h : Orderly s events) (hx : Extends s s' events more)
    (htidy : Tidy s') : Orderly s' (events ++ more) := by
  refine ⟨htidy, fun event hevent i hi => ?_, hx.ended, ?_, h.followed.append hx.followed,
    List.pairwise_append.mpr ⟨h.silenced, hx.within, hx.silenced⟩⟩
  · rcases List.mem_append.mp hevent with hevent | hevent
    · obtain ⟨last, hlast, hle⟩ := h.known event hevent i hi
      obtain ⟨last', hlast', hle'⟩ := hx.last last hlast
      exact ⟨last', hlast', hle.trans hle'⟩
    · exact hx.known event hevent i hi
  · rw [List.filterMap_append]
    refine List.pairwise_append.mpr ⟨h.started, hx.started, fun i hi j hj => ?_⟩
    obtain ⟨event, hevent, hi⟩ := List.mem_filterMap.mp hi
    obtain ⟨later, hlater, hj⟩ := List.mem_filterMap.mp hj
    obtain ⟨last, hlast, hle⟩ := h.known event hevent i (course_of_started hi)
    exact Nat.lt_of_le_of_lt hle (hx.fresh later hlater j hj last hlast)

/-- Events that report nothing but the running of the invocation in the slot. -/
theorem Orderly.stays {more : List Event} (h : Orderly s events) (hs : Stays s s') (htidy : Tidy s')
    (hmore : ∀ event ∈ more, startedIn event = none ∧ exitedIn event = none ∧ cleanedIn event = none ∧
      ∀ i, Event.course? event = some i → ∃ a, s.1.active = some a ∧ a.id = i) : Orderly s' (events ++ more) := by
  have hid : ∀ a', s'.1.active = some a' → ∃ a, s.1.active = some a ∧ a.id = a'.id := by
    intro a' ha'
    have hmap := hs.active
    rw [ha'] at hmap
    exact Option.map_eq_some_iff.mp hmap.symm
  refine h.extend ⟨fun last hlast => ⟨last, hs.last ▸ hlast, Nat.le_refl _⟩, fun event hevent i hi => ?_,
    fun event hevent later hlater i hi hcourse => ?_, fun event hevent i hi a' ha' => ?_,
      fun event hevent i hi => ?_, ?_,
    followed_of_none fun e he => (hmore e he).2.1, ?_⟩ htidy
  · obtain ⟨a, ha, rfl⟩ := (hmore event hevent).2.2.2 i hi
    exact ⟨a.id, hs.last ▸ h.tidy.last a ha, Nat.le_refl _⟩
  · obtain ⟨a, ha, rfl⟩ := (hmore later hlater).2.2.2 i hcourse
    exact h.ended event hevent a.id hi a ha rfl
  · obtain ⟨a, ha, hida⟩ := hid a' ha'
    rcases List.mem_append.mp hevent with hevent | hevent
    · rw [← hida]
      exact h.ended event hevent i hi a ha
    · rw [(hmore event hevent).2.2.1] at hi
      cases hi
  · rw [(hmore event hevent).1] at hi
    cases hi
  · rw [List.filterMap_eq_nil_iff.mpr fun e he => (hmore e he).1]
    exact .nil
  · refine List.pairwise_of_forall_mem_list fun e he e' _ i hi => ?_
    rw [(hmore e he).2.2.1] at hi
    cases hi

/-- The end of the invocation in the slot. -/
theorem Orderly.released {a : Invocation} {running report : List Event} (h : Orderly s events) (htidy : Tidy s')
    (ha : s.1.active = some a) (hnone : s'.1.active = none) (hlast : s'.1.lastInvocation = s.1.lastInvocation)
    (hrunning : ∀ event ∈ running, isRunning a.id event)
    (hreport : report = [] ∨ ∃ exit stdoutBytes stdoutSha256 stderrBytes stderrSha256 frames reaped, report =
      [.workloadExited a.id exit stdoutBytes stdoutSha256 stderrBytes stderrSha256 frames,
        .cleanupComplete a.id reaped]) : Orderly s' (events ++ (running ++ report)) := by
  have hcourse : ∀ event ∈ running ++ report, Event.course? event = some a.id ∧ startedIn event = none := by
    intro event hevent
    rcases List.mem_append.mp hevent with hevent | hevent
    · exact ⟨(hrunning event hevent).1, (hrunning event hevent).2.1⟩
    · rcases hreport with rfl | ⟨_, _, _, _, _, _, _, rfl⟩
      · exact absurd hevent List.not_mem_nil
      · rcases List.mem_pair.mp hevent with rfl | rfl <;> exact ⟨rfl, rfl⟩
  have hfollowed : Followed report := by
    rcases hreport with rfl | ⟨_, _, _, _, _, _, reaped, rfl⟩
    · trivial
    · refine ⟨fun i hi => ?_, fun i hi => (by cases hi), trivial⟩
      cases hi
      exact ⟨reaped, [], rfl⟩
  have hquiet : ∀ event ∈ running, ∀ later, Silenced event later := by
    intro event hevent later i hi
    rw [(hrunning event hevent).2.2.2] at hi
    cases hi
  refine h.extend ⟨fun last hl => ⟨last, hlast ▸ hl, Nat.le_refl _⟩, fun event hevent i hi => ?_,
    fun event hevent later hlater i hi hlate => ?_, fun event hevent i hi b hb => ?_,
      fun event hevent i hi => ?_, ?_, ?_,
    ?_⟩ htidy
  · rw [(hcourse event hevent).1] at hi
    cases hi
    exact ⟨a.id, hlast ▸ h.tidy.last a ha, Nat.le_refl _⟩
  · rw [(hcourse later hlater).1] at hlate
    cases hlate
    exact h.ended event hevent a.id hi a ha rfl
  · rw [hnone] at hb
    cases hb
  · rw [(hcourse event hevent).2] at hi
    cases hi
  · rw [List.filterMap_eq_nil_iff.mpr fun e he => (hcourse e he).2]
    exact .nil
  · exact (followed_of_none fun e he => (hrunning e he).2.2.1).append hfollowed
  · refine List.pairwise_append.mpr ⟨List.pairwise_of_forall_mem_list fun e he e' _ => hquiet e he e', ?_,
      fun e he e' _ => hquiet e he e'⟩
    rcases hreport with rfl | ⟨_, _, _, _, _, _, reaped, rfl⟩
    · exact .nil
    · exact List.pairwise_pair.mpr fun i hi => by cases hi

/-- **One operation** keeps the events in order. -/
theorem Move.orderly {r : IoResult (List Event)} (hmove : Move s s' r) (h : Orderly s events) (htidy : Tidy s') :
    Orderly s' (events ++ eventsOf r) := by
  have hsingle : ∀ {event : Event}, Event.course? event = none → startedIn event = none → exitedIn event = none →
      cleanedIn event = none → ∀ e ∈ [event], startedIn e = none ∧ exitedIn e = none ∧ cleanedIn e = none ∧
        ∀ i, Event.course? e = some i → ∃ a, s.1.active = some a ∧ a.id = i := by
    intro event h1 h2 h3 h4 e he
    rw [List.mem_singleton.mp he]
    exact ⟨h2, h3, h4, fun i hi => by rw [h1] at hi; cases hi⟩
  cases hmove with
  | failed error hs => exact h.stays hs htidy fun e he => absurd he List.not_mem_nil
  | refused j failure detail hs => exact h.stays hs htidy (hsingle rfl rfl rfl rfl)
  | fruitless j failure detail hidle hidle' hfresh hlast hroot =>
    refine h.extend ⟨fun last hl => ⟨j, hlast, (hfresh last hl).le⟩, fun e he i hi => ?_,
      fun e _ e' he' i _ hi => ?_, fun e _ i _ a ha => ?_, fun e he i hi => ?_, .nil,
      ⟨fun i hi => (by cases hi), trivial⟩, List.pairwise_singleton _ _⟩ htidy
    · rw [List.mem_singleton.mp he] at hi
      cases hi
    · rw [List.mem_singleton.mp he'] at hi
      cases hi
    · rw [hidle'] at ha
      cases ha
    · rw [List.mem_singleton.mp he] at hi
      cases hi
  | began j identity hidle hbegun hfresh _ hlast hroot =>
    have hunknown : ∀ e ∈ events, Event.course? e ≠ some j := by
      intro e he hj
      obtain ⟨last, hl, hle⟩ := h.known e he j hj
      have hlt := hfresh last hl
      omega
    refine h.extend ⟨fun last hl => ⟨j, hlast, (hfresh last hl).le⟩, fun e he i hi => ?_,
      fun e he e' he' i hi hi' => ?_, fun e he i hi a ha heq => ?_, fun e he i hi => ?_,
      List.pairwise_singleton _ _, ⟨fun i hi => (by cases hi), trivial⟩, List.pairwise_singleton _ _⟩ htidy
    · rw [List.mem_singleton.mp he] at hi
      cases hi
      exact ⟨j, hlast, Nat.le_refl _⟩
    · rw [List.mem_singleton.mp he'] at hi'
      cases hi'
      exact hunknown e he (course_of_cleaned hi)
    · have hid : a.id = j := by
        rw [ha] at hbegun
        exact Option.some.inj hbegun
      rcases List.mem_append.mp he with he | he
      · exact hunknown e he (by rw [course_of_cleaned hi, ← heq, hid])
      · rw [List.mem_singleton.mp he] at hi
        cases hi
    · rw [List.mem_singleton.mp he] at hi
      cases hi
      exact hfresh
  | served more hs hmore =>
    refine h.stays hs htidy fun e he => ?_
    obtain ⟨a, ha, hrun⟩ := hmore e he
    refine ⟨hrun.2.1, hrun.2.2.1, hrun.2.2.2, fun i hi => ⟨a, ha, ?_⟩⟩
    rw [hrun.1] at hi
    exact Option.some.inj hi
  | released a running report ha hnone hlast _ hroot hrunning hreport =>
    refine h.released htidy ha hnone hlast hrunning ?_
    rcases hreport with ⟨-, -, rfl⟩ | ⟨-, hreport⟩
    · exact .inl rfl
    · exact .inr hreport

/-- **A run** keeps the events in order. -/
theorem performAll_orderly (sha256 : Sha256) : ∀ (operations : List Operation) {s : Runtime × Os}
    {events : List Event}, Orderly s events →
    Orderly (performAll sha256 operations s).2 (events ++ returned (performAll sha256 operations s).1)
  | [], s, events, h => by
    rw [show returned (performAll sha256 [] s).1 = [] from rfl, List.append_nil]
    exact h
  | operation :: operations, s, events, h => by
    obtain ⟨hmove, htidy⟩ := @perform_move sha256 s operation h.tidy
    have hnext := performAll_orderly sha256 operations (hmove.orderly h htidy)
    rw [List.append_assoc] at hnext
    exact hnext

end Step

/-! ## One invocation at a time -/

/-- The exits of a list of events are of different invocations. -/
theorem nodup_exits : ∀ {events : List Event}, Followed events → events.Pairwise Silenced →
    (events.filterMap exitedIn).Nodup
  | [], _, _ => .nil
  | event :: events, hfollowed, hsilenced => by
    rw [List.pairwise_cons] at hsilenced
    have ih := nodup_exits hfollowed.2 hsilenced.2
    cases hexit : exitedIn event with
    | none => rw [List.filterMap_cons_none hexit]; exact ih
    | some i =>
      rw [List.filterMap_cons_some hexit, List.nodup_cons]
      refine ⟨fun hmem => ?_, ih⟩
      obtain ⟨reaped, rest, rfl⟩ := hfollowed.1 i hexit
      obtain ⟨later, hlater, hi⟩ := List.mem_filterMap.mp hmem
      rcases List.mem_cons.mp hlater with rfl | hlater
      · cases hi
      · refine (List.pairwise_cons.mp hsilenced.2).1 later hlater i rfl ?_
        cases later <;> first | exact hi | cases hi

theorem tidy_new {runtimeRoot : Text} {limits : RuntimeLimits} {rt : Runtime} {os : Os}
    (hnew : Runtime.new runtimeRoot limits = .ok rt) (hroots : os.roots = []) : Tidy (rt, os) := by
  obtain ⟨_, -, hnew⟩ := bind_eq_ok.mp hnew
  rw [← pure_eq_ok.mp hnew]
  exact ⟨hroots, fun _ => rfl, fun _ h => (by cases h), fun _ h => (by cases h)⟩

/-- While the slot stays occupied no start succeeds, and the slot is the same invocation's. -/
theorem performAll_occupied (sha256 : Sha256) : ∀ (operations : List Operation) {s : Runtime × Os} {i : Nat},
    Tidy s → s.1.active.map (·.id) = some i →
    (∀ first rest, operations = first ++ rest → (performAll sha256 first s).2.1.active.isSome = true) →
    (∀ event ∈ returned (performAll sha256 operations s).1, startedIn event = none) ∧
      (performAll sha256 operations s).2.1.active.map (·.id) = some i
  | [], s, i, _, hi, _ => ⟨fun _ he => absurd he List.not_mem_nil, hi⟩
  | operation :: operations, s, i, htidy, hi, hoccupied => by
    obtain ⟨hmove, htidy'⟩ := @perform_move sha256 s operation htidy
    have hnow : (operation.perform sha256 s).2.1.active.isSome = true := hoccupied [operation] operations rfl
    obtain ⟨a, ha, rfl⟩ := Option.map_eq_some_iff.mp hi
    have hstep : (∀ event ∈ eventsOf (operation.perform sha256 s).1, startedIn event = none) ∧
        (operation.perform sha256 s).2.1.active.map (·.id) = some a.id := by
      generalize (operation.perform sha256 s).2 = s' at hmove hnow
      generalize (operation.perform sha256 s).1 = r at hmove
      cases hmove with
      | failed error hs => exact ⟨fun _ he => absurd he List.not_mem_nil, hs.active.trans hi⟩
      | refused j failure detail hs =>
        exact ⟨fun e he => by rw [List.mem_singleton.mp he]; rfl, hs.active.trans hi⟩
      | fruitless j failure detail hidle => rw [ha] at hidle; cases hidle
      | began j identity hidle => rw [ha] at hidle; cases hidle
      | served more hs hmore =>
        refine ⟨fun e he => ?_, hs.active.trans hi⟩
        obtain ⟨_, -, hrun⟩ := hmore e he
        exact hrun.2.1
      | released _ _ _ _ hnone => rw [hnone] at hnow; cases hnow
    obtain ⟨hnone, hlast⟩ := performAll_occupied sha256 operations htidy' hstep.2 fun first rest heq =>
      hoccupied (operation :: first) rest (by rw [heq]; rfl)
    refine ⟨fun event hevent => ?_, hlast⟩
    rcases List.mem_append.mp hevent with hevent | hevent
    · exact hstep.1 event hevent
    · exact hnone event hevent

/-- What one operation of a run does to the slot and to the roots on disk. -/
theorem Move.slot {s s' : Runtime × Os} {r : IoResult (List Event)} (hmove : Move s s' r) (htidy : Tidy s)
    (htidy' : Tidy s') :
    (∀ a, s.1.active = some a → s'.1.active = none →
      invocationRoot s.1 a.id ∈ s.2.roots ∧ invocationRoot s.1 a.id ∉ s'.2.roots) ∧
    (∀ event ∈ eventsOf r, ∀ i, startedIn event = some i →
      s.1.active = none ∧ s'.1.active.map (·.id) = some i ∧ s'.2.roots = [invocationRoot s'.1 i]) := by
  have hkept : ∀ a, s'.1.active.map (·.id) = s.1.active.map (·.id) → s.1.active = some a →
      s'.1.active = none → False := by
    intro a hmap ha hnone
    rw [ha, hnone] at hmap
    cases hmap
  cases hmove with
  | failed error hs =>
    exact ⟨fun a ha hnone => (hkept a hs.active ha hnone).elim, fun e he => absurd he List.not_mem_nil⟩
  | refused j failure detail hs =>
    refine ⟨fun a ha hnone => (hkept a hs.active ha hnone).elim, fun e he i hi => ?_⟩
    rw [List.mem_singleton.mp he] at hi
    cases hi
  | fruitless j failure detail hidle =>
    refine ⟨fun a ha _ => ?_, fun e he i hi => ?_⟩
    · rw [hidle] at ha
      cases ha
    · rw [List.mem_singleton.mp he] at hi
      cases hi
  | began j identity hidle hbegun hfresh hpending hlast hroot =>
    refine ⟨fun a ha _ => ?_, fun e he i hi => ?_⟩
    · rw [hidle] at ha
      cases ha
    · rw [List.mem_singleton.mp he] at hi
      cases hi
      refine ⟨hidle, hbegun, ?_⟩
      obtain ⟨a, ha, rfl⟩ := Option.map_eq_some_iff.mp hbegun
      have hroots := htidy'.roots
      rw [ha, hpending] at hroots
      exact hroots
  | served more hs hmore =>
    refine ⟨fun a ha hnone => (hkept a hs.active ha hnone).elim, fun e he i hi => ?_⟩
    obtain ⟨_, -, hrun⟩ := hmore e he
    rw [hrun.2.1] at hi
    cases hi
  | released a running report ha hnone hlast hpending hroot hrunning hreport =>
    have hclear := htidy.pending_none ha
    refine ⟨fun b hb _ => ?_, fun e he i hi => ?_⟩
    · rw [ha] at hb
      cases hb
      have hroots := htidy.roots
      have hroots' := htidy'.roots
      rw [ha, hclear] at hroots
      rw [hnone, hpending, hclear] at hroots'
      rw [hroots, hroots']
      exact ⟨List.mem_singleton_self _, List.not_mem_nil⟩
    · have hnot : startedIn e = none := by
        rcases List.mem_append.mp he with he | he
        · exact (hrunning e he).2.1
        · rcases hreport with ⟨-, -, rfl⟩ | ⟨-, _, _, _, _, _, _, _, rfl⟩
          · exact absurd he List.not_mem_nil
          · rcases List.mem_pair.mp he with rfl | rfl <;> rfl
      rw [hnot] at hi
      cases hi

/-- **One invocation at a time, behind a barrier.**  For every run of a runtime and whatever the operating system
answers: the identifiers of the started invocations strictly increase; no two exits are of one invocation, an
exit is followed at once by its cleanup, and only the refusal of a repeated start names the invocation after
that; while the slot stays occupied no start succeeds and the slot is the same invocation's; a slot is cleared
only with its root removed; a root waits for its removal only while no invocation is active; and a start
succeeds only with no other root on disk. -/
theorem performAll_oneAtATime (sha256 : Sha256) {runtimeRoot : Text} {limits : RuntimeLimits}
    {rt : Runtime} {os : Os} (hnew : Runtime.new runtimeRoot limits = .ok rt) (hroots : os.roots = [])
    (operations : List Operation) :
    ((returned (performAll sha256 operations (rt, os)).1).filterMap startedIn).Pairwise (· < ·) ∧
    ((returned (performAll sha256 operations (rt, os)).1).filterMap exitedIn).Nodup ∧
    (∀ before exit after i, returned (performAll sha256 operations (rt, os)).1 = before ++ exit :: after →
      exitedIn exit = some i → ∃ reaped rest, after = .cleanupComplete i reaped :: rest ∧
        ∀ event ∈ rest, Event.invocation? event = some i → ∃ failure detail,
          event = .launchFailed i failure detail) ∧
    (∀ before middle after a, operations = before ++ middle ++ after →
      (performAll sha256 before (rt, os)).2.1.active = some a →
      (∀ first rest, middle =
        first ++ rest → (performAll sha256 (before ++ first) (rt, os)).2.1.active.isSome = true) →
      (∀ event ∈ returned (performAll sha256 middle (performAll sha256 before (rt, os)).2).1,
        startedIn event = none) ∧ (performAll sha256 (before ++ middle) (rt, os)).2.1.active.map (·.id) =
        some a.id) ∧ ∀ before operation after s r s', operations = before ++ operation :: after →
      s = (performAll sha256 before (rt, os)).2 → operation.perform sha256 s = (r, s') →
      (s'.1.pendingRemoval.isSome = true → s'.1.active = none) ∧
      (∀ a, s.1.active = some a → s'.1.active = none →
        invocationRoot s.1 a.id ∈ s.2.roots ∧ invocationRoot s.1 a.id ∉ s'.2.roots) ∧
      ∀ event ∈ eventsOf r, ∀ i, startedIn event = some i →
        s.1.active = none ∧ s'.1.active.map (·.id) = some i ∧ s'.2.roots = [invocationRoot s'.1 i] := by
  have hbegin := orderly_begin (tidy_new hnew hroots)
  have horderly : ∀ operations, Orderly (performAll sha256 operations (rt, os)).2
      (returned (performAll sha256 operations (rt, os)).1) := fun operations =>
    performAll_orderly sha256 operations hbegin
  have hall := horderly operations
  refine ⟨hall.started, nodup_exits hall.followed hall.silenced, fun before exit after i heq hi => ?_,
    fun before middle after a heq ha hoccupied => ?_, fun before operation after s r s' heq hs hperform => ?_⟩
  · have hfollowed := hall.followed
    have hsilenced := hall.silenced
    rw [heq] at hfollowed hsilenced
    obtain ⟨reaped, rest, rfl⟩ := hfollowed.split hi
    refine ⟨reaped, rest, rfl, fun event hevent hname => ?_⟩
    have hcleaned := (List.pairwise_cons.mp (List.pairwise_cons.mp (List.pairwise_append.mp hsilenced).2.1).2).1
    have hcourse := hcleaned event hevent i rfl
    cases event <;> first | exact absurd hname hcourse | skip
    cases hname
    exact ⟨_, _, rfl⟩
  · have hrun := performAll_occupied sha256 middle (horderly before).tidy (by rw [ha]; rfl)
        fun first rest hsplit => by
      have := hoccupied first rest hsplit
      rw [performAll_append] at this
      exact this
    rw [performAll_append]
    exact hrun
  · have htidy := (horderly before).tidy
    rw [← hs] at htidy
    obtain ⟨hmove, htidy'⟩ := @perform_move sha256 s operation htidy
    rw [hperform] at hmove htidy'
    obtain ⟨hclear, hstart⟩ := hmove.slot htidy htidy'
    exact ⟨htidy'.pending, hclear, hstart⟩

/-- A launch that the runtime accepts. -/
def slotLaunch : LaunchIdentity := ⟨"/bin/fixture", ["/bin/fixture"], [], "/", 1000, 1000⟩

/-- Children that exit at once. -/
def slotOs : Os :=
  { launches := [.spawned 7, .spawned 8]
    waits := [(7, .exited 0), (0, .other), (0, .other), (0, .other), (8, .exited 0), (0, .other), (0, .other),
      (0, .other)]
    reads := [.data "hi\n", .endOfFile, .endOfFile, .endOfFile, .endOfFile] }

theorem performAll_oneAtATime_restart :
    (returned (performAll childSha256 [.start 1 slotLaunch, .start 2 slotLaunch, .poll, .start 2 slotLaunch, .poll]
      ({ runtimeRoot := "/run" }, slotOs)).1).filterMap startedIn = [1, 2] ∧
    (returned (performAll childSha256 [.start 1 slotLaunch, .start 2 slotLaunch, .poll, .start 2 slotLaunch, .poll]
      ({ runtimeRoot := "/run" }, slotOs)).1).filterMap exitedIn = [1, 2] ∧
    [1, 2].Pairwise (· < ·) := by
  have hrun := performAll_oneAtATime childSha256 (rfl : Runtime.new "/run" {} = .ok { runtimeRoot := "/run" })
    (rfl : slotOs.roots = []) [.start 1 slotLaunch, .start 2 slotLaunch, .poll, .start 2 slotLaunch, .poll]
  have hstarted : (returned (performAll childSha256 [.start 1 slotLaunch, .start 2 slotLaunch, .poll,
      .start 2 slotLaunch, .poll] ({ runtimeRoot := "/run" }, slotOs)).1).filterMap startedIn = [1, 2] := by
    decide +kernel
  refine ⟨hstarted, by decide +kernel, ?_⟩
  rw [← hstarted]
  exact hrun.1

/-- A start that repeats an invocation is refused by an event that names it, also behind its cleanup. -/
theorem performAll_repeated_start : ∃ before reaped failure detail,
    returned (performAll childSha256 [.start 1 slotLaunch, .poll, .start 1 slotLaunch]
      ({ runtimeRoot := "/run" }, slotOs)).1 = before ++
        [.cleanupComplete 1 reaped, .launchFailed 1 failure detail] ∧
    (before.filterMap exitedIn) = [1] := by
  refine ⟨(returned (performAll childSha256 [.start 1 slotLaunch, .poll]
    ({ runtimeRoot := "/run" }, slotOs)).1).dropLast, 1, .invocationRepeated,
    "invocation 1 is not greater than the last accepted invocation 1", ?_, ?_⟩
  · decide +kernel
  · decide +kernel

/-! ## Reported ends -/

/-- The exit and the cleanup of an invocation are among the events. -/
def Reported (events : List Event) (i : Nat) : Prop :=
  (∃ event ∈ events, exitedIn event = some i) ∧ ∃ event ∈ events, cleanedIn event = some i

/-- The operations that may clear the slot. -/
def Operation.clears : Operation → Bool
  | .poll => true
  | .shutdown => true
  | _ => false

/-- A poll or shutdown behind a completed cleanup only retries the removal of the root. -/
theorem perform_complete (sha256 : Sha256) {s : Runtime × Os} {operation : Operation} {a : Invocation}
    (htidy : Tidy s) (hop : operation.clears = true) (ha : s.1.active = some a)
    (hcomplete : a.cleanupComplete = true) : operation.perform sha256 s =
    release s.1 { active := a, os := s.2 } := by
  have hexit := htidy.exited a ha hcomplete
  cases operation <;> cases hop
  · show poll sha256 s = _
    unfold poll
    rw [ha]
    dsimp only
    rw [serve_complete sha256 s.1.limits hexit hcomplete]
    dsimp only
    rw [if_pos hcomplete]
  · show shutdown sha256 s = _
    unfold shutdown
    rw [ha]
    dsimp only
    rw [killAndReap_complete sha256 s.1.limits hexit hcomplete]

/-- An operation that clears the slot of an invocation whose cleanup it completes reports it. -/
theorem Move.reported {s s' : Runtime × Os} {r : IoResult (List Event)} {a : Invocation} (hmove : Move s s' r)
    (ha : s.1.active = some a) (hnone : s'.1.active = none) (hnot : a.cleanupComplete = false) :
    Reported (eventsOf r) a.id := by
  have hkept : s'.1.active.map (·.id) ≠ s.1.active.map (·.id) := by
    rw [ha, hnone]
    exact fun h => by cases h
  cases hmove with
  | failed error hs => exact absurd hs.active hkept
  | refused j failure detail hs => exact absurd hs.active hkept
  | fruitless j failure detail hidle => rw [ha] at hidle; cases hidle
  | began j identity hidle => rw [ha] at hidle; cases hidle
  | served more hs hmore => exact absurd hs.active hkept
  | released b running report hb _ _ _ _ _ hreport =>
    rw [ha] at hb
    cases hb
    rcases hreport with ⟨hcomplete, -⟩ | ⟨-, _, _, _, _, _, _, _, rfl⟩
    · rw [hnot] at hcomplete
      cases hcomplete
    · exact ⟨⟨_, List.mem_append_right _ List.mem_cons_self, rfl⟩,
        ⟨_, List.mem_append_right _ (List.mem_cons_of_mem _ List.mem_cons_self), rfl⟩⟩

/-- **When the end of an invocation is reported.**  In every run, each poll or shutdown that clears the slot has
the exit and the cleanup of its invocation reported, then or before, exactly if no poll or shutdown removes the
root of an invocation whose cleanup an earlier one had completed. -/
theorem performAll_reported (sha256 : Sha256) {runtimeRoot : Text} {limits : RuntimeLimits}
    {rt : Runtime} {os : Os} (hnew : Runtime.new runtimeRoot limits = .ok rt) (hroots : os.roots = [])
    (operations : List Operation) : (∀ before operation after a, operations = before ++ operation :: after →
    operation.clears = true → (performAll sha256 before (rt, os)).2.1.active = some a →
      (performAll sha256 (before ++ [operation]) (rt, os)).2.1.active = none →
      Reported (returned (performAll sha256 (before ++ [operation]) (rt, os)).1) a.id) ↔
    ∀ before operation after a s, operations = before ++ operation :: after → operation.clears = true →
      s = (performAll sha256 before (rt, os)).2 → s.1.active = some a → a.cleanupComplete = true →
      (removeRoot s.2 (invocationRoot s.1 a.id)).1 ≠ .ok () := by
  have horderly : ∀ operations, Orderly (performAll sha256 operations (rt, os)).2
      (returned (performAll sha256 operations (rt, os)).1) := fun operations =>
    performAll_orderly sha256 operations (orderly_begin (tidy_new hnew hroots))
  have hstep : ∀ before operation, performAll sha256 (before ++ [operation]) (rt, os) =
      ((performAll sha256 before (rt, os)).1 ++
        [(operation.perform sha256 (performAll sha256 before (rt, os)).2).1],
        (operation.perform sha256 (performAll sha256 before (rt, os)).2).2) := fun before operation =>
    performAll_append sha256 before [operation] (rt, os)
  have hevents : ∀ (results : List (IoResult (List Event))) r,
      returned (results ++ [r]) = returned results ++ eventsOf r := by
    intro results r
    rw [returned, List.flatMap_append, List.flatMap_singleton]
    rfl
  constructor
  · intro hreported before operation after a s hsplit hop hs ha hcomplete hremoved
    have hbefore := horderly before
    have hrelease : operation.perform sha256 s = (.ok [], { s.1 with active := none },
        (removeRoot s.2 (invocationRoot s.1 a.id)).2) := by
      rw [perform_complete sha256 (hs ▸ hbefore.tidy) hop ha hcomplete, release]
      rcases hremove : removeRoot s.2 (invocationRoot s.1 a.id) with ⟨error | u, os1⟩
      · rw [hremove] at hremoved
        cases hremoved
      · rfl
    have hr := hreported before operation after a hsplit hop (hs ▸ ha) (by rw [hstep, ← hs, hrelease])
    obtain ⟨-, event, hevent, hcleaned⟩ := hr
    rw [hstep, ← hs, hrelease, hevents] at hevent
    simp only [eventsOf, List.append_nil] at hevent
    exact hbefore.ended event hevent a.id hcleaned a (hs ▸ ha) rfl
  · intro hcondition before operation after a hsplit hop ha hnone
    have hbefore := horderly before
    rw [hstep] at hnone ⊢
    rw [hevents]
    obtain ⟨hmove, -⟩ := @perform_move sha256 _ operation hbefore.tidy
    have hnot : a.cleanupComplete = false := by
      rw [← Bool.not_eq_true]
      intro hcomplete
      refine hcondition before operation after a _ hsplit hop rfl ha hcomplete ?_
      dsimp only at hnone
      rw [perform_complete sha256 hbefore.tidy hop ha hcomplete, release] at hnone
      split at hnone
      · rename_i hremove
        rw [hremove]
      · cases hnone
    obtain ⟨⟨e, he, hi⟩, e', he', hi'⟩ := hmove.reported ha hnone hnot
    exact ⟨⟨e, List.mem_append_right _ he, hi⟩, e', List.mem_append_right _ he', hi'⟩

/-- The child exits at once, and the first removal of its root fails. -/
def busyOs : Os := { slotOs with removals := [.error ⟨.other, "resource busy"⟩] }

theorem performAll_reported_restart : ∃ a : Invocation,
    (performAll childSha256 [.start 1 slotLaunch] ({ runtimeRoot := "/run" }, slotOs)).2.1.active = some a ∧
    Reported (returned (performAll childSha256 [.start 1 slotLaunch, .poll] ({ runtimeRoot := "/run" }, slotOs)).1)
      a.id := by
  have hrun := performAll_reported childSha256 (rfl : Runtime.new "/run" {} = .ok { runtimeRoot := "/run" })
    (rfl : slotOs.roots = []) [.start 1 slotLaunch, .poll]
  refine ⟨{ id := 1, pid := 7 }, by decide +kernel, hrun.mpr ?_ [.start 1 slotLaunch] .poll [] _ rfl rfl
    (by decide +kernel) (by decide +kernel)⟩
  intro before operation after a s hsplit hop hs ha hcomplete
  rcases before with _ | ⟨first, _ | ⟨second, rest⟩⟩
  · cases hsplit
    cases hop
  · cases hsplit
    have hstate : s.1.active = some { id := 1, pid := 7 } := by
      rw [hs]
      decide +kernel
    rw [hstate] at ha
    cases ha
    cases hcomplete
  · simp at hsplit

/-- After a removal that failed, the next poll clears the slot and reports nothing. -/
theorem performAll_unreported_retry :
    (performAll childSha256 [.start 1 slotLaunch, .poll]
      ({ runtimeRoot := "/run" }, busyOs)).2.1.active.map (·.id) =
      some 1 ∧
    (performAll childSha256 [.start 1 slotLaunch, .poll, .poll]
      ({ runtimeRoot := "/run" }, busyOs)).2.1.active = none ∧
    ¬ Reported (returned (performAll childSha256 [.start 1 slotLaunch, .poll, .poll]
      ({ runtimeRoot := "/run" }, busyOs)).1) 1 := by
  have hnone : (returned (performAll childSha256 [.start 1 slotLaunch, .poll, .poll]
      ({ runtimeRoot := "/run" }, busyOs)).1).filterMap exitedIn = [] := by
    decide +kernel
  refine ⟨by decide +kernel, by decide +kernel, fun h => ?_⟩
  obtain ⟨⟨event, hevent, hi⟩, -⟩ := h
  have hmem := List.mem_filterMap.mpr ⟨event, hevent, hi⟩
  rw [hnone] at hmem
  cases hmem

end SimFerret.Guest
