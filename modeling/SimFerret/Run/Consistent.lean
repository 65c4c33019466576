import SimFerret.Run.Replay

/-!
# SimFerret.Run.Consistent — the files of a run directory

* `Consistent`: the files of a run directory agree with each other and with the manifest.
* `recheck_iff`: **this is what is checked** before anything is built; each check has its own lemma in front of it.
-/

namespace SimFerret.Run

open Workload Driver

/-! ## The files of a run -/

section Consistent

variable {formats : Formats} {directory : Directory} {manifest : Manifest} {σ κ : Type} {profile : Profile σ κ}
  {recording : Recording σ κ}

/-- The files of a run directory agree with each other and with the manifest. -/
structure Consistent (formats : Formats) (directory : Directory) (manifest : Manifest) (profile : Profile σ κ)
    (recording : Recording σ κ) : Prop where
  scenario : directory.Holds "scenario.toml" maxScenarioSourceBytes recording.scenarioBytes
  parsed : profile.parse recording.scenarioBytes = .ok recording.scenario
  name : profile.name recording.scenario = manifest.scenarioName
  choices : directory.Holds "choices.json" maxSemanticArtifactBytes recording.choiceBytes
  planned : profile.codec.fromSlice recording.choiceBytes = .ok recording.choices
  plan : recording.choices = profile.choices recording.scenario manifest.seed
  fits : profile.fits recording.choices = .ok ()
  events : directory.Holds "events.jsonl" maxSemanticArtifactBytes recording.eventBytes
  decoded : decodeEvents formats.event formats.utf8Error recording.eventBytes = .ok recording.events
  numbered : ∀ index event, recording.events[index]? = some event →
    event.protocolVersion = protocolVersion ∧ event.eventId = index + 1
  counted : profile.counted recording.scenario recording.events = .ok ()
  assertions : directory.Holds "assertions.json" maxSemanticArtifactBytes recording.assertionBytes
  reported : formats.report.fromSlice recording.assertionBytes = .ok recording.assertions
  shaped : validProfile recording.assertions profile.assertions = true
  /-- The report is the one that the events give. -/
  evaluated : recording.assertions =
    profile.evaluate recording.scenario recording.choices (recording.events.map NormalizedEvent.frame)
  semantic : recording.semantic formats = manifest.semanticOutcomeSha256

/-- The envelopes are numbered without a gap. -/
theorem checkEnvelopes_iff : ∀ {index : Nat} {events : List NormalizedEvent},
    checkEnvelopes index events = .ok () ↔ ∀ i event, events[i]? = some event →
    event.protocolVersion = protocolVersion ∧ event.eventId = index + i + 1
  | _, [] => ⟨fun _ i event hget => by simp at hget, fun _ => rfl⟩
  | index, event :: events => by
    constructor
    · intro h
      obtain ⟨_, henvelope, h⟩ := bind_eq_ok.mp h
      have henvelope := require_eq_ok.mp henvelope
      rw [Bool.and_eq_true, beq_iff_eq, beq_iff_eq] at henvelope
      intro i other hget
      cases i with
      | zero =>
        obtain rfl := Option.some.inj hget
        exact henvelope
      | succ i =>
        obtain ⟨hversion, hid⟩ := checkEnvelopes_iff.mp h i other hget
        exact ⟨hversion, by omega⟩
    · intro h
      obtain ⟨hversion, hid⟩ := h 0 event rfl
      refine bind_eq_ok.mpr ⟨(), require_eq_ok.mpr ?_, checkEnvelopes_iff.mpr fun i other hget => ?_⟩
      · rw [hversion, hid]
        simp
      · obtain ⟨hversion', hid'⟩ := h (i + 1) other hget
        exact ⟨hversion', by omega⟩

theorem readRecordedEvents_iff {events : List NormalizedEvent} {bytes : Bytes} :
    readRecordedEvents formats directory = .ok (events, bytes) ↔
      directory.Holds "events.jsonl" maxSemanticArtifactBytes bytes ∧
        decodeEvents formats.event formats.utf8Error bytes = .ok events ∧
        ∀ index event, events[index]? = some event → event.protocolVersion = protocolVersion ∧
            event.eventId = index + 1 := by
  have hnumbered : checkEnvelopes 0 events = .ok () ↔ ∀ index event, events[index]? = some event →
      event.protocolVersion = protocolVersion ∧ event.eventId = index + 1 := by
    simp only [checkEnvelopes_iff, Nat.zero_add]
  constructor
  · intro h
    obtain ⟨_, hread, h⟩ := bind_eq_ok.mp h
    obtain ⟨_, hdecode, h⟩ := bind_eq_ok.mp h
    obtain ⟨_, hcheck, h⟩ := bind_eq_ok.mp h
    obtain ⟨rfl, rfl⟩ := Prod.mk.inj (pure_eq_ok.mp h)
    exact ⟨readBounded_ok.mp hread, hdecode, hnumbered.mp hcheck⟩
  · rintro ⟨hholds, hdecode, henvelopes⟩
    refine bind_eq_ok.mpr ⟨bytes, readBounded_ok.mpr hholds, bind_eq_ok.mpr ⟨events, hdecode, ?_⟩⟩
    exact bind_eq_ok.mpr ⟨(), hnumbered.mpr henvelopes, rfl⟩

theorem readRecordedAssertions_iff {report : AssertionReport} {bytes : Bytes} :
    readRecordedAssertions formats directory = .ok (report, bytes) ↔
      directory.Holds "assertions.json" maxSemanticArtifactBytes bytes ∧
          formats.report.fromSlice bytes = .ok report := by
  constructor
  · intro h
    obtain ⟨_, hread, h⟩ := bind_eq_ok.mp h
    obtain ⟨_, hreport, h⟩ := bind_eq_ok.mp h
    obtain ⟨rfl, rfl⟩ := Prod.mk.inj (pure_eq_ok.mp h)
    exact ⟨readBounded_ok.mp hread, mapError_eq_ok.mp hreport⟩
  · rintro ⟨hholds, hreport⟩
    exact bind_eq_ok.mpr ⟨bytes, readBounded_ok.mpr hholds,
      bind_eq_ok.mpr ⟨report, mapError_eq_ok.mpr hreport, rfl⟩⟩

theorem Consistent.readEvents (h : Consistent formats directory manifest profile recording) :
    readRecordedEvents formats directory = .ok (recording.events, recording.eventBytes) :=
  readRecordedEvents_iff.mpr ⟨h.events, h.decoded, h.numbered⟩

/-- **What is checked of a recording** before anything is built, all of it and nothing else. -/
theorem recheck_iff [DecidableEq κ] : recheck formats directory profile manifest = .ok recording ↔
    Consistent formats directory manifest profile recording := by
  constructor
  · intro h
    obtain ⟨scenarioBytes, hscenario, h⟩ := bind_eq_ok.mp h
    obtain ⟨scenario, hparsed, h⟩ := bind_eq_ok.mp h
    obtain ⟨_, hname, h⟩ := bind_eq_ok.mp h
    obtain ⟨choiceBytes, hchoices, h⟩ := bind_eq_ok.mp h
    obtain ⟨choices, hplanned, h⟩ := bind_eq_ok.mp h
    obtain ⟨_, hplan, h⟩ := bind_eq_ok.mp h
    obtain ⟨_, hfits, h⟩ := bind_eq_ok.mp h
    obtain ⟨⟨events, eventBytes⟩, hevents, h⟩ := bind_eq_ok.mp h
    obtain ⟨_, hcounted, h⟩ := bind_eq_ok.mp h
    obtain ⟨⟨assertions, assertionBytes⟩, hassertions, h⟩ := bind_eq_ok.mp h
    obtain ⟨_, hshaped, h⟩ := bind_eq_ok.mp h
    obtain ⟨_, hevaluated, h⟩ := bind_eq_ok.mp h
    obtain ⟨_, hsemantic, h⟩ := bind_eq_ok.mp h
    obtain rfl := pure_eq_ok.mp h
    obtain ⟨hholds, hdecoded, hnumbered⟩ := readRecordedEvents_iff.mp hevents
    obtain ⟨hreport, hreported⟩ := readRecordedAssertions_iff.mp hassertions
    exact ⟨readBounded_ok.mp hscenario, hparsed, eq_of_beq (require_eq_ok.mp hname), readBounded_ok.mp hchoices,
      mapError_eq_ok.mp hplanned, of_decide_eq_true (require_eq_ok.mp hplan), hfits, hholds, hdecoded,
        hnumbered, hcounted, hreport, hreported, require_eq_ok.mp hshaped,
        eq_of_beq (require_eq_ok.mp hevaluated), eq_of_beq (require_eq_ok.mp hsemantic)⟩
  · intro h
    have hassertions := readRecordedAssertions_iff.mpr ⟨h.assertions, h.reported⟩
    refine bind_eq_ok.mpr ⟨_, readBounded_ok.mpr h.scenario,
      bind_eq_ok.mpr ⟨_, h.parsed, bind_eq_ok.mpr ⟨(), ?_, ?_⟩⟩⟩
    · exact require_eq_ok.mpr (beq_iff_eq.mpr h.name)
    refine bind_eq_ok.mpr ⟨_, readBounded_ok.mpr h.choices, bind_eq_ok.mpr ⟨_, mapError_eq_ok.mpr h.planned, ?_⟩⟩
    refine bind_eq_ok.mpr ⟨(), require_eq_ok.mpr (decide_eq_true h.plan), bind_eq_ok.mpr ⟨(), h.fits, ?_⟩⟩
    refine bind_eq_ok.mpr ⟨_, h.readEvents, bind_eq_ok.mpr ⟨(), h.counted, bind_eq_ok.mpr ⟨_, hassertions, ?_⟩⟩⟩
    refine bind_eq_ok.mpr ⟨(), require_eq_ok.mpr h.shaped,
      bind_eq_ok.mpr ⟨(), require_eq_ok.mpr (beq_iff_eq.mpr h.evaluated), ?_⟩⟩
    exact bind_eq_ok.mpr ⟨(), require_eq_ok.mpr (beq_iff_eq.mpr h.semantic), rfl⟩

end Consistent

end SimFerret.Run
