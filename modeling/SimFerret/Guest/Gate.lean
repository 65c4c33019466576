import SimFerret.Guest.Report

/-!
# SimFerret.Guest.Gate — the two flags that gate the agent's commands

`dispatch` refuses a command that does not fit `network_configured` and `outage_active`.

* `Flags.gate`: the refusals of the agent, with their texts.
* `dispatch_eq_ungated`, `dispatch_refused`: a command that passes the gate meets none of these checks again; a
  command that does not is refused by them.
* `turns_dispatch`, `run_flags`: what a command, and a run, makes of the flags.
* `Admissible`: no command of a list is refused at its place.
-/

namespace SimFerret.Guest

open Action

structure Flags where
  networkConfigured : Bool := false
  outageActive : Bool := false
deriving DecidableEq, Repr

def Agent.flags (g : Agent) : Flags := ⟨g.networkConfigured, g.outageActive⟩

namespace Flags

variable (f : Flags)

/-- The checks of the flags in `dispatch`. -/
def gate : Command → IoResult Unit
  | .configureNetwork .. => require (!f.networkConfigured) (invalid "network is already configured")
  | .activateOutage .. => do
    require f.networkConfigured (invalid "network is not configured")
    require (!f.outageActive) (invalid "outage is already active")
  | .restoreNetwork .. => do
    require f.networkConfigured (invalid "network is not configured")
    require f.outageActive (invalid "outage is not active")
  | .request .. => require f.networkConfigured (invalid "network is not configured")
  | .shutdown => require (!f.outageActive) (invalid "cannot shut down while outage is active")
  | _ => .ok ()

/-- What a command makes of the flags. -/
def next : Command → Flags
  | .configureNetwork .. => { f with networkConfigured := true }
  | .activateOutage .. => { f with outageActive := true }
  | .restoreNetwork .. => { f with outageActive := false }
  | _ => f

/-- The flags after a list of commands. -/
def after (commands : List Command) : Flags := commands.foldl next f

/-- No command is refused at its place. -/
def Admissible (commands : List Command) : Prop :=
  ∀ earlier command later, commands = earlier ++ command :: later → (f.after earlier).gate command = .ok ()

theorem after_snoc (commands : List Command) (command : Command) :
    f.after (commands ++ [command]) = (f.after commands).next command := by
  simp [after]

variable {f}

theorem admissible_nil : f.Admissible [] := by
  intro earlier command later h
  simp at h

theorem Admissible.snoc {commands : List Command} {command : Command} (h : f.Admissible commands)
    (hgate : (f.after commands).gate command = .ok ()) : f.Admissible (commands ++ [command]) :=
  @forall_split_snoc _ (fun earlier c => (f.after earlier).gate c = .ok ()) _ _ h hgate

/-- A part of an admissible list is admissible. -/
theorem Admissible.of_part {commands part : List Command} (h : f.Admissible commands) (hpart : part <+: commands) :
    f.Admissible part := by
  obtain ⟨rest, rfl⟩ := hpart
  intro earlier command later heq
  exact h earlier command (later ++ rest) (by rw [heq]; simp)

end Flags

/-! ## The gate of `dispatch` -/

section Dispatch

variable {sha256 : Sha256} {commandId : Nat} {g g' : Agent} {command : Command}

/-- `dispatch` without its checks of the flags. -/
def ungated (sha256 : Sha256) (commandId : Nat) : Command → Act Bool
  | .configureNetwork interface' cidr gateway' => do
    requireNetworkValues interface' cidr gateway'
    network
    modify fun g => { g with networkConfigured := true }
    emit commandId (.networkConfigured interface' cidr gateway')
    return true
  | .activateOutage peer => do
    requirePeer peer
    network
    modify fun g => { g with outageActive := true }
    emit commandId (.outageActivated peer outageRule)
    return true
  | .restoreNetwork peer => do
    requirePeer peer
    network
    modify fun g => { g with outageActive := false }
    emit commandId (.networkRestored peer)
    return true
  | .request requestId payload phase => do
    validateRequest requestId payload gateway
    emit commandId (.requestAttempted requestId payload phase)
    let response ← tftpRequest
    emit commandId (requestEvent requestId payload phase response)
    return true
  | .shutdown => do
    shutdownRuntime sha256
    emit commandId .agentStopped
    return false
  | command => dispatch sha256 commandId command

theorem ok_bind {ε α β : Type} (a : α) (f : α → Except ε β) : (Except.ok a >>= f) = f a := rfl

theorem requireNetwork_bind {α : Type} (f : Unit → Act α) : (requireNetwork >>= f) g =
    require g.networkConfigured (invalid "network is not configured") >>= fun _ => f () g := by
  rw [require]
  cases hconfigured : g.networkConfigured with
  | false => simp only [bind, StateT.bind, requireNetwork, hconfigured]; rfl
  | true => simp only [bind, StateT.bind, requireNetwork, hconfigured]; rfl

/-- A command that passes the gate is not refused for the flags. -/
theorem dispatch_eq_ungated (h : g.flags.gate command = .ok ()) :
    dispatch sha256 commandId command g = ungated sha256 commandId command g := by
  cases command with
  | configureNetwork interface' cidr gateway' =>
    have hflag : require (!g.networkConfigured) (invalid "network is already configured") = .ok () := h
    simp only [dispatch, ungated, configureNetwork, bind_assoc, lift_bind, get_bind, hflag, ok_bind]
  | activateOutage peer =>
    obtain ⟨u, hnetwork, hflag⟩ := bind_eq_ok.mp h
    have hnetwork : require g.networkConfigured (invalid "network is not configured") = .ok u := hnetwork
    have hflag : require (!g.outageActive) (invalid "outage is already active") = .ok () := hflag
    simp only [dispatch, ungated, activateOutage, bind_assoc, requireNetwork_bind, lift_bind, get_bind,
      hnetwork, hflag, ok_bind]
  | restoreNetwork peer =>
    obtain ⟨u, hnetwork, hflag⟩ := bind_eq_ok.mp h
    have hnetwork : require g.networkConfigured (invalid "network is not configured") = .ok u := hnetwork
    have hflag : require g.outageActive (invalid "outage is not active") = .ok () := hflag
    simp only [dispatch, ungated, restoreNetwork, bind_assoc, requireNetwork_bind, lift_bind, get_bind,
      hnetwork, hflag, ok_bind]
  | request requestId payload phase =>
    have hnetwork : require g.networkConfigured (invalid "network is not configured") = .ok () := h
    simp only [dispatch, ungated, request, bind_assoc, requireNetwork_bind, lift_bind, hnetwork, ok_bind]
  | shutdown =>
    have hflag : require (!g.outageActive) (invalid "cannot shut down while outage is active") = .ok () := h
    simp only [dispatch, ungated, shutdownAgent, bind_assoc, lift_bind, get_bind, hflag, ok_bind]
  | _ => rfl

theorem error_bind {ε α β : Type} {x : Except ε α} {e : ε} (h : x = .error e) (f : α → Except ε β) :
    (x >>= f) = .error e := by
  rw [h]
  rfl

/-- A command of the profile that does not pass the gate is refused for the flags. -/
theorem dispatch_refused {error : IoError} (h : g.flags.gate command = .error error)
    (hvalues : ∀ interface' cidr gateway', command = .configureNetwork interface' cidr gateway' →
      requireNetworkValues interface' cidr gateway' = .ok ())
    (hpeer : ∀ peer, command = .activateOutage peer ∨ command = .restoreNetwork peer → requirePeer peer = .ok ()) :
    dispatch sha256 commandId command g = .error error := by
  cases command with
  | configureNetwork interface' cidr gateway' =>
    simp only [dispatch, configureNetwork, bind_assoc, lift_bind, get_bind, hvalues _ _ _ rfl, ok_bind]
    exact error_bind h _
  | activateOutage peer =>
    simp only [dispatch, activateOutage, bind_assoc, requireNetwork_bind, lift_bind, get_bind,
      hpeer peer (.inl rfl), ok_bind]
    rw [← bind_assoc]
    exact error_bind h _
  | restoreNetwork peer =>
    simp only [dispatch, restoreNetwork, bind_assoc, requireNetwork_bind, lift_bind, get_bind,
      hpeer peer (.inr rfl), ok_bind]
    rw [← bind_assoc]
    exact error_bind h _
  | request requestId payload phase =>
    simp only [dispatch, request, bind_assoc, requireNetwork_bind]
    exact error_bind h _
  | shutdown =>
    simp only [dispatch, shutdownAgent, bind_assoc, lift_bind, get_bind]
    exact error_bind h _
  | _ => exact absurd h (by simp [Flags.gate])

/-- Every run that returns changes the flags so. -/
def Turns (f : Flags → Flags) {α : Type} (x : Act α) : Prop := Along (fun g g' => g'.flags = f g.flags) x

theorem Turns.bind {α β : Type} {f f' : Flags → Flags} {x : Act α} {y : α → Act β} (hx : Turns f x)
    (hy : ∀ a, Turns f' (y a)) : Turns (f' ∘ f) (x >>= y) := by
  intro s b s' h
  obtain ⟨a, s1, h1, h2⟩ := bind_ok.mp h
  rw [hy a s1 b s' h2, hx s a s1 h1]
  rfl

theorem Turns.then_pure {α β : Type} {f : Flags → Flags} {x : Act α} (hx : Turns f x) (b : β) :
    Turns f (x >>= fun _ => pure b) := by
  intro s b' s' h
  obtain ⟨a, s1, h1, h2⟩ := bind_ok.mp h
  rw [(pure_ok.mp h2).2, hx s a s1 h1]

theorem turns_pure {α : Type} (a : α) : Turns id (pure a : Act α) := by
  intro g b g' h
  rw [(pure_ok.mp h).2]
  rfl

theorem turns_lift {α : Type} (x : IoResult α) : Turns id (liftM x : Act α) := by
  intro g a g' h
  rw [(lift_ok.mp h).2]
  rfl

theorem turns_get : Turns id (get : Act Agent) := by
  intro g a g' h
  rw [(get_ok.mp h).2]
  rfl

theorem turns_modify {f : Agent → Agent} {f' : Flags → Flags} (h : ∀ g, (f g).flags = f' g.flags) :
    Turns f' (modify f : Act Unit) := by
  intro g u g' hrun
  rw [modify_ok.mp hrun, h]

theorem turns_emit (event : Event) : Turns id (emit commandId event) := by
  intro g u g' h
  obtain ⟨_, -, h⟩ := bind_eq_ok.mp h
  cases h
  rfl

theorem turns_emitAll : ∀ events : List Event, Turns id (emitAll commandId events)
  | [] => by
    intro g u g' h
    rw [(pure_ok.mp h).2]
    rfl
  | event :: events => (turns_emit event).bind fun _ => turns_emitAll events

theorem turns_network : Turns id network := by
  intro g u g' h
  obtain ⟨_, -, h⟩ := bind_eq_ok.mp h
  cases h
  rfl

theorem turns_requireNetwork : Turns id requireNetwork := by
  intro g u g' h
  obtain ⟨_, -, h⟩ := bind_eq_ok.mp h
  cases h
  rfl

theorem turns_tftpRequest : Turns id tftpRequest := by
  intro g a g' h
  cases h
  rfl

/-- The runtime does not touch the flags. -/
theorem turns_supervise (rt : Runtime) (operation : Supervise (List Event)) :
    Turns id (supervise commandId rt operation) := by
  refine Turns.bind (f := id) (fun g events g' h => ?_) fun events => turns_emitAll events
  split at h
  · cases h
    rfl
  · cases h

theorem turns_withRuntime (operation : Supervise (List Event)) : Turns id (withRuntime commandId operation) := by
  intro g u g' h
  unfold withRuntime at h
  split at h
  · cases h
  · exact turns_supervise _ _ g u g' h

theorem turns_serviceRuntime : Turns id (serviceRuntime sha256) := by
  intro g u g' h
  unfold serviceRuntime at h
  split at h
  · cases h
    rfl
  · exact turns_supervise _ _ g u g' h

theorem turns_shutdownRuntime : Turns id (shutdownRuntime sha256) := by
  intro g u g' h
  unfold shutdownRuntime at h
  split at h
  · cases h
    rfl
  · exact turns_supervise _ _ g u g' h

theorem turns_startWorkload (invocation : Nat) (identity : Workload.LaunchIdentity) :
    Turns id (startWorkload commandId invocation identity) := by
  intro g u g' h
  unfold startWorkload at h
  split at h
  · exact turns_supervise _ _ g u g' h
  · exact turns_emitAll _ g u g' h

/-- What a command makes of the flags. -/
theorem turns_dispatch (command : Command) : Turns (fun f => f.next command)
    (dispatch sha256 commandId command) := by
  cases command with
  | configureNetwork interface' cidr gateway' =>
    have hset := @turns_modify (fun g => { g with networkConfigured := true })
      (·.next (.configureNetwork [] [] [])) fun _ => rfl
    exact ((turns_lift _).bind fun _ => turns_get.bind fun _ => (turns_lift _).bind fun _ =>
        turns_network.bind fun _ =>
      hset.bind fun _ => turns_emit _).then_pure _
  | activateOutage peer =>
    have hset := @turns_modify (fun g => { g with outageActive := true })
      (·.next (.activateOutage [])) fun _ => rfl
    exact (turns_requireNetwork.bind fun _ => (turns_lift _).bind fun _ => turns_get.bind fun _ =>
      (turns_lift _).bind fun _ => turns_network.bind fun _ => hset.bind fun _ => turns_emit _).then_pure _
  | restoreNetwork peer =>
    have hset := @turns_modify (fun g => { g with outageActive := false })
      (·.next (.restoreNetwork [])) fun _ => rfl
    exact (turns_requireNetwork.bind fun _ => (turns_lift _).bind fun _ => turns_get.bind fun _ =>
      (turns_lift _).bind fun _ => turns_network.bind fun _ => hset.bind fun _ => turns_emit _).then_pure _
  | request requestId payload phase =>
    exact (turns_requireNetwork.bind fun _ => (turns_lift _).bind fun _ => (turns_emit _).bind fun _ =>
      turns_tftpRequest.bind fun _ => turns_emit _).then_pure _
  | check outageEventBound livenessEventBound =>
    have hset := fun code : Nat => @turns_modify (fun g =>
      { g with exitCode := max g.exitCode code }) id fun _ => rfl
    exact (turns_get.bind fun _ => (hset _).bind fun _ => turns_emit _).then_pure _
  | start invocation identity => exact (turns_startWorkload _ _).then_pure _
  | stdinWrite invocation offset bytes => exact (turns_withRuntime _).then_pure _
  | stdinEof invocation => exact (turns_withRuntime _).then_pure _
  | terminate invocation => exact (turns_withRuntime _).then_pure _
  | shutdown =>
    exact (turns_get.bind fun _ => (turns_lift _).bind fun _ => turns_shutdownRuntime.bind fun _ =>
      turns_emit _).then_pure _

theorem turns_turn (t : Turn) : Turns (fun f => f.after ((commandsOf [t]).map CommandFrame.command))
    (turn sha256 t) := by
  cases t with
  | service => exact turns_serviceRuntime.then_pure _
  | receive frame =>
    have hset := @turns_modify (fun g => { g with lastCommandId := frame.commandId }) id fun _ => rfl
    have hdispatch := @turns_dispatch sha256 frame.commandId frame.command
    exact (turns_lift _).bind fun _ => hset.bind fun _ => hdispatch.bind fun _ => turns_pure _
  | closed => exact turns_get.bind fun _ => turns_shutdownRuntime.then_pure _

/-- The flags that a run leaves are those of its commands, by induction on the turns. -/
theorem run_flags : ∀ {turns : List Turn} {g g' : Agent}, run sha256 turns g = .ok (none, g') →
    g'.flags = g.flags.after ((commandsOf turns).map CommandFrame.command)
  | [], g, g', h => by
    rw [(pure_ok.mp h).2]
    rfl
  | t :: turns, g, g', h => by
    obtain ⟨r, g1, hturn, h⟩ := bind_ok.mp h
    have hflags := turns_turn t g r g1 hturn
    cases r with
    | some r => cases (pure_ok.mp h).1
    | none =>
      have hsplit : commandsOf (t :: turns) = commandsOf [t] ++ commandsOf turns :=
        List.filterMap_append (l := [t])
      rw [run_flags h, hflags, hsplit, List.map_append]
      exact List.foldl_append.symm

/-- **No command of an admissible run is refused for the flags.** -/
theorem gate_of_admissible {turns earlier later : List Turn} {frame : CommandFrame}
    (hadmissible : g.flags.Admissible ((commandsOf turns).map CommandFrame.command))
    (hturns : turns = earlier ++ .receive frame :: later) (hrun : run sha256 earlier g = .ok (none, g')) :
    g'.flags.gate frame.command = .ok () := by
  rw [run_flags hrun]
  refine hadmissible _ _ ((commandsOf later).map CommandFrame.command) ?_
  rw [hturns, commandsOf, List.filterMap_append, List.map_append]
  rfl

end Dispatch

end SimFerret.Guest
