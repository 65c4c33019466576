import SimFerret.Run.Sound

/-!
# SimFerret.Run.Binding — what a digest decides

Of two run directories that both replay, wherever they lie and whatever VMs they are replayed with:

* one manifest is a manifest of the same artifacts;
* one digest of an outcome is a digest of the same scenario, plan, events and report.

* `Directory.Digested`: the messages whose digests a replay compares.  `replay_binding` needs that no two of
  them collide.
-/

namespace SimFerret.Run

open Workload Driver

/-- The files that an outcome is made of, in the order of its digest. -/
def semanticNames : List Text := ["scenario.toml", "choices.json", "events.jsonl", "assertions.json"]

/-- What is digested of a directory: its artifacts, and the message of its outcome. -/
inductive Directory.Digested (directory : Directory) : Bytes → Prop where
  | artifact (name : Text) (bytes : Bytes) (hname : name ∈ artifactSet true)
      (hholds : directory.Holds name (artifactLimit name) bytes) : directory.Digested bytes
  | outcome (parts : List Bytes)
      (hholds : List.Forall₂ (fun name bytes => directory.Holds name (artifactLimit name) bytes)
      semanticNames parts) : directory.Digested (partsMessage parts)

section Binding

variable {formats : Formats} {directory directory' : Directory} {manifest manifest' : Manifest}
  {result result' : ReplayResult}

/-- Equal outcomes are made of equal files. -/
theorem partsMessage_inj {parts parts' : List Bytes} (hparts : ∀ part ∈ parts, part.length < u64Size)
    (hparts' : ∀ part ∈ parts', part.length < u64Size) (h : partsMessage parts = partsMessage parts') :
    parts = parts' := by
  have hne : ∀ part : Bytes, part.length < u64Size → digestPart part ≠ [] := fun part _ => (framed_ne_nil _ part).1
  have hkeys := (delimits_framed delimits_be64).flatMap hne parts parts' hparts hparts' h
  rwa [List.map_id, List.map_id] at hkeys

theorem sha256Hex_inj {sha256 : Sha256} {messages : Set Bytes} (hinj : Set.InjOn sha256 messages) {a b : Bytes}
    (ha : a ∈ messages) (hb : b ∈ messages) (h : sha256Hex sha256 a = sha256Hex sha256 b) : a = b := by
  rw [sha256Hex, sha256Hex, encodeBytes_eq_hex, encodeBytes_eq_hex] at h
  exact hinj ha hb (hex_injective h)

/-- What the files of a run fix of the result of its replay. -/
structure Fixed (formats : Formats) (directory : Directory) (manifest : Manifest) (result : ReplayResult)
    (parts : List Bytes) : Prop where
  held : List.Forall₂ (fun name bytes => directory.Holds name (artifactLimit name) bytes) semanticNames parts
  small : ∀ part ∈ parts, part.length < u64Size
  digest : sha256Hex formats.sha256 (partsMessage parts) = result.semanticOutcomeSha256
  manifest : result.runId = manifest.runId ∧ result.semanticOutcomeSha256 = manifest.semanticOutcomeSha256
  events : ∃ events eventBytes, parts[2]? = some eventBytes ∧
    decodeEvents formats.event formats.utf8Error eventBytes = .ok events ∧ result.eventCount = events.length
  assertions : ∃ assertionBytes, parts[3]? = some assertionBytes ∧
    formats.report.fromSlice assertionBytes = .ok result.assertions

theorem fixed_of_established {σ κ : Type} {profile : Profile σ κ} {host : Host} {options : ReplayOptions}
    {template : Option Bytes} (h : Established formats host options directory manifest profile template result) :
    ∃ parts, Fixed formats directory manifest result parts := by
  obtain ⟨recording, config, process, hconsistent, -, rfl⟩ := h
  have hsmall : ∀ {name : Text} {bytes : Bytes}, directory.Holds name (artifactLimit name) bytes →
      name ∈ semanticNames → bytes.length < u64Size := by
    intro name bytes hholds hname
    obtain ⟨_, -, -, hlength⟩ := hholds
    have hlimit : ∀ name ∈ semanticNames, artifactLimit name < u64Size := by decide +kernel
    exact Nat.lt_of_le_of_lt hlength (hlimit name hname)
  refine ⟨[recording.scenarioBytes, recording.choiceBytes, recording.eventBytes, recording.assertionBytes],
    ⟨?_, ?_, hconsistent.semantic, ⟨rfl, rfl⟩, ⟨_, _, rfl, hconsistent.decoded, rfl⟩,
      ⟨_, rfl, hconsistent.reported⟩⟩⟩
  · exact .cons hconsistent.scenario (.cons hconsistent.choices
      (.cons hconsistent.events (.cons hconsistent.assertions .nil)))
  · intro part hpart
    simp only [List.mem_cons, List.not_mem_nil, or_false] at hpart
    rcases hpart with rfl | rfl | rfl | rfl
    · exact hsmall hconsistent.scenario (by decide)
    · exact hsmall hconsistent.choices (by decide)
    · exact hsmall hconsistent.events (by decide)
    · exact hsmall hconsistent.assertions (by decide)

theorem fixed_of_replay {host : Host} {options : ReplayOptions}
    (hdirectory : host.runs options.directory = .ok directory)
    (h : replay formats host options = .ok result) : ∃ manifest parts,
    readJson formats.manifest directory "manifest.json" maxManifestBytes = .ok manifest ∧
      Matches formats.sha256 directory manifest.artifacts ∧ Fixed formats directory manifest result parts := by
  obtain ⟨found, manifest, hfound, hmanifest, hestablished⟩ := replay_established h
  obtain rfl := Except.ok.inj (hdirectory.symm.trans hfound)
  obtain ⟨hread, -, hmatches⟩ := readManifest_ok hmanifest
  rcases hestablished with ⟨-, hnetwork⟩ | ⟨loaded, -, -, hworkload⟩
  · obtain ⟨parts, hfixed⟩ := fixed_of_established hnetwork
    exact ⟨manifest, parts, hread, hmatches, hfixed⟩
  · obtain ⟨parts, hfixed⟩ := fixed_of_established hworkload
    exact ⟨manifest, parts, hread, hmatches, hfixed⟩

/-- What is read of a directory depends on its files alone. -/
theorem readJson_congr {α : Type} {codec : Codec α} {name : Text} {limit : Nat} {value : α}
    (h : readJson codec directory name limit = .ok value) (hsame : directory'.entry name = directory.entry name) :
    readJson codec directory' name limit = .ok value := by
  obtain ⟨bytes, hread, h⟩ := bind_eq_ok.mp h
  exact bind_eq_ok.mpr ⟨bytes, readBounded_ok.mpr ((readBounded_ok.mp hread).congr hsame), h⟩

theorem Matches.digested {artifacts : Std.ExtTreeMap Text Text} {name digest : Text}
    (h : Matches formats.sha256 directory artifacts)
    (hdigest : artifacts[name]? = some digest) : ∃ bytes, directory.Holds name (artifactLimit name) bytes ∧
      directory.Digested bytes ∧ digest = sha256Hex formats.sha256 bytes := by
  obtain ⟨bytes, hholds, heq⟩ := h.holds name digest hdigest
  refine ⟨bytes, hholds, .artifact name bytes (mem_artifactSet.mpr ?_) hholds, heq⟩
  have hmem : name ∈ artifacts := by
    rw [Std.ExtTreeMap.mem_iff_isSome_getElem?, hdigest]
    rfl
  rcases h.known name hmem with hlock | hname
  · exact Or.inr ⟨rfl, hlock⟩
  · exact Or.inl hname

/-- One digest, one outcome. -/
theorem Fixed.agree {parts parts' : List Bytes} (h : Fixed formats directory manifest result parts)
    (h' : Fixed formats directory' manifest' result' parts')
    (hinj : Set.InjOn formats.sha256 {message | directory.Digested message ∨ directory'.Digested message})
    (hsame : result.semanticOutcomeSha256 = result'.semanticOutcomeSha256) :
    parts = parts' ∧ result.eventCount = result'.eventCount ∧ result.assertions = result'.assertions := by
  have hmessages : partsMessage parts = partsMessage parts' :=
    sha256Hex_inj hinj (Or.inl (.outcome parts h.held)) (Or.inr (.outcome parts' h'.held))
      (by rw [h.digest, h'.digest, hsame])
  obtain rfl := partsMessage_inj h.small h'.small hmessages
  obtain ⟨events, eventBytes, hpart, hdecoded, hcount⟩ := h.events
  obtain ⟨events', eventBytes', hpart', hdecoded', hcount'⟩ := h'.events
  obtain rfl := Option.some.inj (hpart.symm.trans hpart')
  obtain rfl := Except.ok.inj (hdecoded.symm.trans hdecoded')
  obtain ⟨assertionBytes, hreport, hread⟩ := h.assertions
  obtain ⟨assertionBytes', hreport', hread'⟩ := h'.assertions
  obtain rfl := Option.some.inj (hreport.symm.trans hreport')
  exact ⟨rfl, hcount.trans hcount'.symm, Except.ok.inj (hread.symm.trans hread')⟩

/-- **A digest decides what it stands for.**  Of two runs that replay, those with one manifest have the same
artifacts and the same result, and those with one digest of their outcomes have the same scenario, plan, events
and report. -/
theorem replay_binding (formats : Formats) (host host' : Host) (options options' : ReplayOptions)
    (directory directory' : Directory) (result result' : ReplayResult)
    (hdirectory : host.runs options.directory = .ok directory)
    (hdirectory' : host'.runs options'.directory = .ok directory') (h : replay formats host options = .ok result)
    (h' : replay formats host' options' = .ok result')
    (hinj : Set.InjOn formats.sha256 {message | directory.Digested message ∨ directory'.Digested message}) :
    (directory'.entry "manifest.json" = directory.entry "manifest.json" → result = result' ∧ ∃ manifest,
      readJson formats.manifest directory "manifest.json" maxManifestBytes = .ok manifest ∧
        ∀ name ∈ manifest.artifacts, ∃ bytes, directory.Holds name (artifactLimit name) bytes ∧
          directory'.Holds name (artifactLimit name) bytes) ∧
      (result.semanticOutcomeSha256 = result'.semanticOutcomeSha256 → result.eventCount = result'.eventCount ∧
        result.assertions = result'.assertions ∧ ∀ name ∈ semanticNames, ∃ bytes,
          directory.Holds name (artifactLimit name) bytes ∧ directory'.Holds name (artifactLimit name) bytes) := by
  obtain ⟨manifest, parts, hread, hmatches, hfixed⟩ := fixed_of_replay hdirectory h
  obtain ⟨manifest', parts', hread', hmatches', hfixed'⟩ := fixed_of_replay hdirectory' h'
  constructor
  · intro hsame
    obtain rfl := Except.ok.inj (hread'.symm.trans (readJson_congr hread hsame))
    have hdigest := hfixed.manifest.2.trans hfixed'.manifest.2.symm
    obtain ⟨-, hcount, hassertions⟩ := hfixed.agree hfixed' hinj hdigest
    refine ⟨?_, manifest', hread, fun name hname => ?_⟩
    · obtain ⟨runId, eventCount, semantic, assertions⟩ := result
      obtain ⟨runId', eventCount', semantic', assertions'⟩ := result'
      obtain rfl : runId = runId' := hfixed.manifest.1.trans hfixed'.manifest.1.symm
      obtain rfl : eventCount = eventCount' := hcount
      obtain rfl : semantic = semantic' := hdigest
      obtain rfl : assertions = assertions' := hassertions
      rfl
    · obtain ⟨digest, hdigest⟩ := Option.isSome_iff_exists.mp (Std.ExtTreeMap.mem_iff_isSome_getElem?.mp hname)
      obtain ⟨bytes, hholds, hmessage, heq⟩ := hmatches.digested hdigest
      obtain ⟨bytes', hholds', hmessage', heq'⟩ := hmatches'.digested hdigest
      obtain rfl := sha256Hex_inj hinj (Or.inl hmessage) (Or.inr hmessage') (heq.symm.trans heq')
      exact ⟨bytes, hholds, hholds'⟩
  · intro hdigest
    obtain ⟨rfl, hcount, hassertions⟩ := hfixed.agree hfixed' hinj hdigest
    refine ⟨hcount, hassertions, fun name hname => ?_⟩
    obtain ⟨index, hindex, rfl⟩ := List.mem_iff_getElem.mp hname
    have hheld := List.forall₂_iff_get.mp hfixed.held
    have hheld' := List.forall₂_iff_get.mp hfixed'.held
    have hwithin : index < parts.length := hheld.1 ▸ hindex
    exact ⟨parts.get ⟨index, hwithin⟩, hheld.2 index hindex hwithin, hheld'.2 index hindex hwithin⟩

end Binding

section Sample

variable {run : Directory} {again : Bool}

/-- A run directory with the artifacts of a recording of the sample. -/
def HoldsSample (again : Bool) (run : Directory) : Prop :=
  ((artifactSet true).map fun name => (run.entry name).toOption) =
    (sampleContents again).map fun contents => some (.file contents)

theorem HoldsSample.unique (h : HoldsSample again run) {index limit : Nat} {name : Text} {bytes : Bytes}
    (hname : (artifactSet true)[index]? = some name) (hholds : run.Holds name limit bytes) :
    (sampleContents again)[index]? = some bytes := by
  obtain ⟨length, hentry, -, -⟩ := hholds
  have hget := congrArg (fun entries => entries[index]?) h
  simp only [List.getElem?_map, hname, Option.map_some, hentry] at hget
  obtain ⟨contents, hcontents, heq⟩ := Option.map_eq_some_iff.mp hget.symm
  rw [hcontents, (Artifact.regular.inj (Option.some.inj heq)).2]

/-- The messages of both recordings. -/
def sampleMessages : List Bytes :=
  partsMessage ((sampleContents false).take 2 ++ ((sampleContents false).drop 3).take 2) :: sampleLog true ::
    (sampleContents false).take 6

theorem HoldsSample.digested (h : HoldsSample again run) {message : Bytes} (hmessage : run.Digested message) :
    message ∈ sampleMessages := by
  cases hmessage with
  | artifact name bytes hname hholds =>
    obtain ⟨index, hindex⟩ := List.mem_iff_getElem?.mp hname
    have hcontents := h.unique hindex hholds
    refine List.mem_cons_of_mem _ ?_
    have hall : ∀ contents ∈ sampleContents again, contents ∈ sampleLog true :: (sampleContents false).take 6 := by
      intro contents hmem
      cases again <;>
        simp only [sampleContents, sampleLog, List.mem_cons, List.not_mem_nil, or_false, List.take_succ_cons,
          List.take_zero] at hmem ⊢ <;>
        tauto
    exact hall _ (List.mem_iff_getElem?.mpr ⟨index, hcontents⟩)
  | outcome parts hholds =>
    obtain ⟨a, _, ha, hrest₁, rfl⟩ := List.forall₂_cons_left_iff.mp hholds
    obtain ⟨b, _, hb, hrest₂, rfl⟩ := List.forall₂_cons_left_iff.mp hrest₁
    obtain ⟨c, _, hc, hrest₃, rfl⟩ := List.forall₂_cons_left_iff.mp hrest₂
    obtain ⟨d, _, hd, hrest₄, rfl⟩ := List.forall₂_cons_left_iff.mp hrest₃
    obtain rfl := List.forall₂_nil_left_iff.mp hrest₄
    have hfirst := h.unique (show (artifactSet true)[0]? = _ from rfl) ha
    have hsecond := h.unique (show (artifactSet true)[1]? = _ from rfl) hb
    have hthird := h.unique (show (artifactSet true)[3]? = _ from rfl) hc
    have hfourth := h.unique (show (artifactSet true)[4]? = _ from rfl) hd
    rw [← Option.some.inj hfirst, ← Option.some.inj hsecond, ← Option.some.inj hthird, ← Option.some.inj hfourth]
    exact List.mem_cons_self

theorem sampleMessages_injOn : Set.InjOn runSha256 { message | message ∈ sampleMessages } := by
  have hnodup : (sampleMessages.map runSha256).Nodup := by decide +kernel
  exact fun a ha b hb hsame => List.inj_on_of_nodup_map hnodup ha hb hsame

/-- Two recordings of the sample with different logs and one outcome, each replayed in a guest with a pid of its
own. -/
theorem replay_binding_sample : ∃ published published' result result',
    replay sampleFormats (laterHost published 78) laterOptions = .ok result ∧
    replay sampleFormats (laterHost published' 79) laterOptions = .ok result' ∧
    published'.run.entry "replay.bin" ≠ published.run.entry "replay.bin" ∧
    result.semanticOutcomeSha256 = result'.semanticOutcomeSha256 ∧ result.assertions = result'.assertions ∧
    ∀ name ∈ semanticNames, ∃ bytes, published.run.Holds name (artifactLimit name) bytes ∧
      published'.run.Holds name (artifactLimit name) bytes := by
  have hreplayed : ∀ again pid, ∃ published result, HoldsSample again published.run ∧
      replay sampleFormats (laterHost published pid) laterOptions = .ok result ∧
      result.semanticOutcomeSha256 = sampleManifest.semanticOutcomeSha256 := by
    intro again pid
    obtain ⟨published, eventBytes, manifest, hrecord, hparent, hsample, hmanifest, hsemantic, hcontents⟩ :=
      sampleRun_published again
    obtain ⟨nanos, root, staging, runtime, outcome, store, houtcome, hpublish⟩ := record_ok hrecord
    obtain ⟨manifest', events, _, hmanifest', hread, hreplay⟩ :=
      replayable_network sampleFormats_faithful houtcome hpublish
    obtain rfl : events = sampleEvents := congrArg Prod.fst (Except.ok.inj (hread.symm.trans hsample))
    obtain rfl := Except.ok.inj (hmanifest.symm.trans hmanifest')
    exact ⟨published, _, hcontents, hreplay _ _ _ _ (@laterHost_resumes _ again hparent pid)
      (laterHost_emits published pid) (laterFrames_events pid), hsemantic⟩
  obtain ⟨published, result, hholds, hresult, hsemantic⟩ := hreplayed false 78
  obtain ⟨published', result', hholds', hresult', hsemantic'⟩ := hreplayed true 79
  have hinj : Set.InjOn sampleFormats.sha256
      {message | published.run.Digested message ∨ published'.run.Digested message} := by
    refine sampleMessages_injOn.mono fun message hmessage => ?_
    rcases hmessage with hmessage | hmessage
    · exact hholds.digested hmessage
    · exact hholds'.digested hmessage
  obtain ⟨-, houtcomes⟩ := replay_binding sampleFormats (laterHost published 78)
    (laterHost published' 79) laterOptions laterOptions published.run published'.run result result' rfl rfl
    hresult hresult' hinj
  have hsame := hsemantic.trans hsemantic'.symm
  obtain ⟨-, hassertions, hheld⟩ := houtcomes hsame
  refine ⟨published, published', result, result', hresult, hresult', fun hlog => ?_, hsame, hassertions, hheld⟩
  have hfirst := congrArg (fun entries => entries[2]?) hholds
  have hsecond := congrArg (fun entries => entries[2]?) hholds'
  have hentries : (published'.run.entry "replay.bin").toOption =
    (published.run.entry "replay.bin").toOption := by rw [hlog]
  have hlogs : some (some (Artifact.file (sampleLog true))) = some (some (Artifact.file (sampleLog false))) :=
    hsecond.symm.trans ((congrArg some hentries).trans hfirst)
  exact absurd hlogs (by decide +kernel)

end Sample

end SimFerret.Run
