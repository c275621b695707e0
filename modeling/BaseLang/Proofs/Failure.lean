import BaseLang.Proofs.Regeneration

/-!
# Regenerations that fail

What a failed regeneration leaves behind, and when it is taken for an up-to-date language.

* `eq_writingOrder` : the pretty-print table comes last;
* `process_writes` : the artifacts that a run rewrites behind the generator, in their order;
* `status_eq_fresh_iff_of_failed` : a failed regeneration looks fresh exactly if each artifact that has not
  been rewritten was newer than the definition before;
* `not_always_stale_after_failure` : this can happen.
-/

namespace BaseLang

open FileSystem

/-- Who has written the last artifact has written all of them. -/
theorem Regeneration.eq_writingOrder {order : List Artifact} (h : order <+: writingOrder)
    (hm : .prettyTable ∈ order) : order = writingOrder := by
  obtain ⟨rest, hrest⟩ := h
  rcases List.eq_nil_or_concat rest with rfl | ⟨before, last, rfl⟩
  · rwa [List.append_nil] at hrest
  · have hdrop := congrArg List.dropLast hrest
    rw [List.concat_eq_append, ← List.append_assoc, List.dropLast_concat] at hdrop
    have hmem : .prettyTable ∈ writingOrder.dropLast := hdrop ▸ List.mem_append_left before hm
    exact absurd hmem (by decide)

namespace Plugin

variable {p : Plugin} {toolchain : Toolchain} {c : Configuration} {definition : Path} {language : String}
  {fs before : FileSystem} {outcome : Except ProcessError BaseLanguage} {r : Run}

/-- Behind the generator, a run that takes the artifacts for stale rewrites the first few of them. -/
theorem process_writes (hl : languageName definition = .ok language)
    (hb : p.ensureBin.run fs = (.ok (), before)) (hs : p.status definition before = .ok .stale)
    (h : (p.process toolchain c definition).run ⟨fs, []⟩ = (outcome, r)) :
    ∃ ws, (p.artifacts language).writeAll ws ((toolchain.generate definition language p.bin).run before).2
        = .ok r.files
      ∧ ws.map Prod.fst <+: Regeneration.writingOrder ∧ ∀ a, .written a ∈ r.events ↔ a ∈ ws.map Prod.fst := by
  rw [status_eq hl] at hs
  obtain ⟨s, ws, hfiles, hnew, hw, hp, _⟩ := process_wrote hl hb hs h
  rw [← hfiles]
  exact ⟨ws, hw.files, hp, fun a => hw.written_iff (hnew a)⟩

/-- An artifact that the generator or the run behind it has written. -/
def Rewritten (raws : List (Artifact × String)) (r : Run) (a : Artifact) : Prop :=
  a ∈ raws.map Prod.fst ∨ .written a ∈ r.events

/-- **What a failed regeneration leaves behind.** Let a run take the artifacts for stale and fail before it has
written all of them, and let its generator write raw modules and nothing else. Then the pretty-print table is
still the old one, and the artifacts are fresh afterwards exactly if the definition is older than what has been
written, and each artifact that has not been rewritten was newer than the definition before. -/
theorem status_eq_fresh_iff_of_failed {raws : List (Artifact × String)} {e : ProcessError}
    (hl : languageName definition = .ok language) (hb : p.ensureBin.run fs = (.ok (), before))
    (hs : p.status definition before = .ok .stale)
    (hraw : ∀ w ∈ raws, w.1 = .grammar ∨ w.1 = .transformation)
    (hg : (p.artifacts language).writeAll raws before
      = .ok ((toolchain.generate definition language p.bin).run before).2)
    (h : (p.process toolchain c definition).run ⟨fs, []⟩ = (.error e, r)) (hw : ∃ a, .written a ∉ r.events) :
    ¬ Rewritten raws r .prettyTable ∧ (p.status definition r.files = .ok .fresh ↔
      ∃ source, Freshness.modified r.files definition = .ok source ∧ source < before.clock
        ∧ ∀ a, ¬ Rewritten raws r a →
          ∃ time, Freshness.modified before ((p.artifacts language).path a) = .ok time ∧ source < time) := by
  obtain ⟨ws, hws, hprefix, hevents⟩ := process_writes hl hb hs h
  have hall := Artifacts.writeAll_append hg hws
  have hrewritten : ∀ a, a ∈ (raws ++ ws).map Prod.fst ↔ Rewritten raws r a := by
    intro a
    rw [Rewritten, List.map_append, List.mem_append, ← hevents]
  obtain ⟨home, hh⟩ := Artifacts.housed_of_isDir (named_artifacts p hl) (isDir_of_ensureBin hb)
  have htime := hh.modified_writeAll hall
  constructor
  · rintro (hm | hm)
    · obtain ⟨w, hmem, hpretty⟩ := List.mem_map.1 hm
      rcases hraw w hmem with h | h <;> simp [h] at hpretty
    · obtain ⟨a, ha⟩ := hw
      rw [hevents] at ha hm
      rw [Regeneration.eq_writingOrder hprefix hm] at ha
      exact ha (Regeneration.mem_writingOrder a)
  · rw [status_eq hl, Freshness.of_eq_fresh_iff]
    constructor
    · rintro ⟨source, hsource, hfresh⟩
      refine ⟨source, hsource, ?_, fun a ha => ?_⟩
      · -- If nothing at all were rewritten, the artifacts would be as stale as before.
        cases hr : raws ++ ws with
        | nil =>
          rw [hr] at hall
          cases hall
          have hfresh' := Freshness.of_eq_fresh_iff.2 ⟨source, hsource, hfresh⟩
          rw [status_eq hl, hfresh'] at hs
          cases hs
        | cons w rest =>
          obtain ⟨time, ht, hlt⟩ := hfresh w.1
          rw [htime, hr, if_pos (by simp)] at ht
          cases ht
          exact hlt
      · obtain ⟨time, ht, hlt⟩ := hfresh a
        rw [htime, if_neg (mt (hrewritten a).1 ha)] at ht
        exact ⟨time, ht, hlt⟩
    · rintro ⟨source, hsource, hclock, hold⟩
      refine ⟨source, hsource, fun a => ?_⟩
      by_cases ha : Rewritten raws r a
      · exact ⟨before.clock, by rw [htime, if_pos ((hrewritten a).2 ha)], hclock⟩
      · obtain ⟨time, ht, hlt⟩ := hold a ha
        exact ⟨time, by rw [htime, if_neg (mt (hrewritten a).1 ha), ht], hlt⟩

/-! ### An example -/

/-- A plugin whose language has all artifacts but the transformation module, each newer than the definition. -/
def incompleteFiles : FileSystem where
  nodes := Table.ofList [([], .dir 0), (["p"], .dir 0), (["src", "p"], .dir 0),
    (["x.b", "src", "p"], .file .empty 1 false), (["bin", "p"], .dir 0),
    (["x.sdf", "bin", "p"], .file .empty 2 false), (["x.serv", "bin", "p"], .file .empty 2 false),
    (["x.def", "bin", "p"], .file .empty 2 false), (["x.pp", "bin", "p"], .file .empty 2 false)]
  workingDir := []
  clock := 3

/-- Services whose generator finds an error in the definition. -/
def rejecting : Toolchain := .textual 40 (.leaving "grammar" "transformation" ["unknown sort"])

/-- A run that ends with the errors of the generator. -/
def failingRun : Except ProcessError BaseLanguage × Run :=
  ((Plugin.mk ⟨"p"⟩).process rejecting .bare ⟨"p/src/x.b"⟩).run ⟨incompleteFiles, []⟩

theorem failingRun_outcome : (failingRun.1.toOption.isSome, failingRun.2.events,
    (Freshness.modified failingRun.2.files ⟨"p/src/x.b"⟩).toOption,
    ((Plugin.mk ⟨"p"⟩).status ⟨"p/src/x.b"⟩ failingRun.2.files).toOption)
      = (false, [.generate ⟨"p/src/x.b"⟩ "x" ⟨"p/bin"⟩], some 1, some .fresh) := by
  decide +kernel

theorem failingRun_eq : ∃ e r, failingRun = (.error e, r) ∧ .written .prettyTable ∉ r.events
    ∧ Freshness.modified r.files ⟨"p/src/x.b"⟩ = .ok 1
    ∧ (Plugin.mk ⟨"p"⟩).status ⟨"p/src/x.b"⟩ r.files = .ok .fresh := by
  have hrun := failingRun_outcome
  cases h : failingRun with
  | mk outcome r =>
    rw [h] at hrun
    obtain ⟨houtcome, hrest⟩ := Prod.mk.inj hrun
    obtain ⟨hevents, htimes⟩ := Prod.mk.inj hrest
    obtain ⟨hmodified, hstatus⟩ := Prod.mk.inj htimes
    cases outcome with
    | ok base => cases houtcome
    | error e =>
      refine ⟨e, r, rfl, ?_, eq_ok_of_toOption hmodified, eq_ok_of_toOption hstatus⟩
      rw [show r.events = [.generate ⟨"p/src/x.b"⟩ "x" ⟨"p/bin"⟩] from hevents]
      decide

theorem ensureBin_example : (Plugin.mk ⟨"p"⟩).ensureBin.run incompleteFiles = (.ok (), incompleteFiles) :=
  ensureBin_of_isDir (by decide +kernel)

theorem status_example : (Plugin.mk ⟨"p"⟩).status ⟨"p/src/x.b"⟩ incompleteFiles = .ok .stale :=
  eq_ok_of_toOption (by decide +kernel)

theorem generate_example :
    ((Plugin.mk ⟨"p"⟩).artifacts "x").writeAll [(.grammar, "grammar"), (.transformation, "transformation")]
      incompleteFiles
    = .ok ((rejecting.generate ⟨"p/src/x.b"⟩ "x" (Plugin.mk ⟨"p"⟩).bin).run incompleteFiles).2 := by
  have hsome : (((Plugin.mk ⟨"p"⟩).artifacts "x").writeAll
    [(.grammar, "grammar"), (.transformation, "transformation")] incompleteFiles).toOption.isSome := by
    decide +kernel
  cases hw : ((Plugin.mk ⟨"p"⟩).artifacts "x").writeAll [(.grammar, "grammar"), (.transformation, "transformation")]
    incompleteFiles with
  | error e =>
    rw [hw] at hsome
    cases hsome
  | ok after =>
    have hrun := Generator.leaving_run hw ["unknown sort"] ⟨"p/src/x.b"⟩
    have hafter : ((rejecting.generate ⟨"p/src/x.b"⟩ "x" (Plugin.mk ⟨"p"⟩).bin).run incompleteFiles).2 = after :=
      congrArg Prod.snd hrun
    rw [hafter]

/-- The raw transformation module stands where the missing one should be, since the generator has written it
before it reported its error. The other artifacts are newer than the definition, so the language looks fresh. -/
theorem failure_looks_fresh_example : ∃ e r, failingRun = (.error e, r)
    ∧ (Plugin.mk ⟨"p"⟩).status ⟨"p/src/x.b"⟩ incompleteFiles = .ok .stale
    ∧ .written .prettyTable ∉ r.events ∧ (Plugin.mk ⟨"p"⟩).status ⟨"p/src/x.b"⟩ r.files = .ok .fresh := by
  obtain ⟨e, r, h, hw, hmodified, _⟩ := failingRun_eq
  have hiff := (status_eq_fresh_iff_of_failed languageName_example ensureBin_example status_example
    (by decide) generate_example h ⟨_, hw⟩).2
  refine ⟨e, r, h, status_example, hw, hiff.2 ⟨1, hmodified, by decide, fun a ha => ?_⟩⟩
  cases a with
  | grammar => exact absurd (Or.inl (by decide)) ha
  | transformation => exact absurd (Or.inl (by decide)) ha
  | editorServices => exact ⟨2, eq_ok_of_toOption (by decide +kernel), by decide⟩
  | packagedGrammar => exact ⟨2, eq_ok_of_toOption (by decide +kernel), by decide⟩
  | prettyTable => exact ⟨2, eq_ok_of_toOption (by decide +kernel), by decide⟩

/-- A failed regeneration is not always found out. -/
theorem not_always_stale_after_failure :
    ¬ ∀ (p : Plugin) (toolchain : Toolchain) (c : Configuration) (definition : Path) (language : String)
      (fs before : FileSystem) (raws : List (Artifact × String)) (e : ProcessError) (r : Run),
      languageName definition = .ok language → p.ensureBin.run fs = (.ok (), before) →
      p.status definition before = .ok .stale → (∀ w ∈ raws, w.1 = .grammar ∨ w.1 = .transformation) →
      (p.artifacts language).writeAll raws before
        = .ok ((toolchain.generate definition language p.bin).run before).2 →
      (p.process toolchain c definition).run ⟨fs, []⟩ = (.error e, r) → (∃ a, .written a ∉ r.events) →
      p.status definition r.files ≠ .ok .fresh := by
  intro hall
  obtain ⟨e, r, h, hw, _, hfresh⟩ := failingRun_eq
  exact hall _ _ _ _ _ _ _ _ e r languageName_example ensureBin_example status_example (by decide)
    generate_example h ⟨_, hw⟩ hfresh

end Plugin

end BaseLang
