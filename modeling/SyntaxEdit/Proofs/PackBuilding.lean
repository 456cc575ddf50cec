/-
Building the packs of a file: what can go wrong, and where the packs end up.

Definitions are built in order, and each one sees the packs of those before it.  So what a list of
definitions gives is told by its last definition and by what the list before it gives.

* `PackDefinition.override_eq` — what one definition makes of the pack that it starts from;
* `findBase?_concat`, `exists_findBase?_iff` — where the pack that a definition extends is found;
* `packsOf`, `packsOf_concat`, `exists_packsOf_of_split` — the packs of a list of definitions, and
  of the parts of one;
* `PackDefinition.HasKnownBase`, `BasesKnown` — whether the pack that a definition extends exists,
  for one definition and for all of a list;
* `exists_packsOf_iff`, `packsOf_eq_error_iff` — this decides whether there are packs;
* `Registry.get?_packs_withPacks`, `exists_stored_of_split` — the packs that a registry has in the
  end;
* `PackFile.build_total` — all of this for a file without issues.
-/
import Mathlib.Data.List.Induction
import SyntaxEdit.PackFile.Build
import SyntaxEdit.Proofs.Lowercasing
import SyntaxEdit.Proofs.RegistryHistory

namespace SyntaxEdit

variable {base : Registry} {d : PackDefinition} {start parent pack : LanguagePack}
  {built packs : List LanguagePack} {definitions earlier later : List PackDefinition}
  {name : Text} {e : PackError}

/-! ### One definition -/

namespace PackDefinition

/-- The language id that a name stands for. -/
def packId (name : Text) : String :=
  String.ofList (Text.lowercase (Text.trim name))

theorem lowercaseString_languageId (d : PackDefinition) :
    lowercaseString d.languageId = d.languageId := by
  simp [lowercaseString, languageId]

/-- The queries that a definition gives stand in place of those of the pack. -/
theorem overrideQueries_eq (d : PackDefinition) (pack : LanguagePack) :
    d.overrideQueries pack = { pack with queries := {
      classes := d.queries.classes.getD pack.queries.classes
      methods := d.queries.methods.getD pack.queries.methods
      properties := d.queries.properties.getD pack.queries.properties
      blocks := d.queries.blocks.getD pack.queries.blocks } } := by
  obtain ⟨_, _, _, _, ⟨classes, methods, properties, blocks⟩, _, _, _, _⟩ := d
  cases classes <;> cases methods <;> cases properties <;> cases blocks <;> rfl

/-- What a definition makes of the pack that it starts from: everything that it gives takes the
place of what was there, and node types that it says nothing of keep their kinds and rules. -/
theorem override_eq (d : PackDefinition) (pack : LanguagePack) :
    d.override pack = {
      language := pack.language
      grammar := pack.grammar
      extensions := (d.extensions.map String.ofList).map LanguagePack.normalizeExtension
      queries := (d.overrideQueries pack).queries
      kindMap := pack.kindMap.insertAll d.kindMap.entries
      bodyMap := pack.bodyMap.insertAll d.bodyMap.entries
      stringUnwrap := (d.stringUnwrap.map String.ofList).or pack.stringUnwrap
      indentUnit := d.indentUnit.getD pack.indentUnit } := by
  cases hunwrap : d.stringUnwrap <;> cases hunit : d.indentUnit <;>
    simp [override, overrideQueries_eq, hunwrap, hunit, LanguagePack.withExtensions,
      LanguagePack.withKinds, LanguagePack.withBodyRules, LanguagePack.withStringUnwrap,
      LanguagePack.withIndentUnit]

@[simp] theorem override_language (d : PackDefinition) (pack : LanguagePack) :
    (d.override pack).language = pack.language := by
  rw [override_eq]

/-- A definition starts from a copy of the pack that it extends, or from nothing but a grammar. -/
theorem startingPack_eq_ok_iff :
    d.startingPack base built = .ok start ↔
      (∃ name parent, d.base = some name ∧ findBase? base built name = some parent ∧
        start = parent.derive d.languageId (d.grammar.getD parent.grammar)) ∨
      ∃ grammar, d.base = none ∧ d.grammar = some grammar ∧
        start = .plain d.languageId grammar := by
  cases hbase : d.base with
  | some name =>
    cases hfound : findBase? base built name with
    | some parent => simp [startingPack, hbase, hfound, eq_comm]
    | none => simp [startingPack, hbase, hfound]
  | none => cases hgrammar : d.grammar <;> simp [startingPack, hbase, hgrammar, eq_comm]

/-- It has nothing to start from if the pack that it extends is not found, or if it extends none and
gives no grammar. -/
theorem startingPack_eq_error_iff :
    d.startingPack base built = .error e ↔
      (∃ name, d.base = some name ∧ findBase? base built name = none ∧
        e = .unknownBase d.languageId name) ∨
      d.base = none ∧ d.grammar = none ∧ e = .unsupportedLanguage d.languageId.toList := by
  cases hbase : d.base with
  | some name =>
    cases hfound : findBase? base built name <;> simp [startingPack, hbase, hfound, eq_comm]
  | none => cases hgrammar : d.grammar <;> simp [startingPack, hbase, hgrammar, eq_comm]

/-- Whatever a definition starts from, the pack is one for its own language. -/
theorem language_of_startingPack (h : d.startingPack base built = .ok start) :
    start.language = d.languageId := by
  rcases startingPack_eq_ok_iff.1 h with ⟨name, parent, -, -, rfl⟩ | ⟨grammar, -, -, rfl⟩
  · exact d.lowercaseString_languageId
  · exact d.lowercaseString_languageId

end PackDefinition

open PackDefinition

/-! ### Where a pack is found -/

theorem findBase?_nil (base : Registry) (name : Text) :
    findBase? base [] name = base.get? (Text.lowercase (Text.trim name)) := rfl

/-- The pack built last comes first. -/
theorem findBase?_concat (base : Registry) (built : List LanguagePack) (pack : LanguagePack)
    (name : Text) :
    findBase? base (built ++ [pack]) name =
      if pack.language = packId name then some pack else findBase? base built name := by
  simp only [findBase?, packId, List.reverse_append, List.reverse_singleton, List.singleton_append,
    List.find?_cons]
  by_cases h : pack.language = String.ofList (Text.lowercase (Text.trim name)) <;> simp [h]

/-- A name leads to a pack if one of those built so far has it for its language, or if the registry
knows it. -/
theorem exists_findBase?_iff :
    (∃ pack, findBase? base built name = some pack) ↔
      packId name ∈ built.map LanguagePack.language ∨
        ∃ pack, base.get (Text.lowercase (Text.trim name)) = .ok pack := by
  have hget : (∃ pack, base.get (Text.lowercase (Text.trim name)) = .ok pack) ↔
      ∃ pack, base.get? (Text.lowercase (Text.trim name)) = some pack := by
    rw [Registry.get]
    cases base.get? (Text.lowercase (Text.trim name)) <;> simp
  rw [hget]
  -- The newest pack counts first, so the list is taken apart at its end.
  induction built using List.reverseRecOn with
  | nil => simp [findBase?_nil]
  | append_singleton built pack ih =>
    rw [findBase?_concat]
    by_cases h : pack.language = packId name
    · simp [h]
    · rw [if_neg h]
      simp [ih, Ne.symm h]

/-! ### Lists of definitions -/

/-- The packs of some definitions, one for each, in order. -/
def packsOf (base : Registry) (definitions : List PackDefinition) :
    Except PackError (List LanguagePack) :=
  definitions.foldlM (PackDefinition.addTo base) []

theorem packsOf_append (base : Registry) (earlier later : List PackDefinition) :
    packsOf base (earlier ++ later) =
      packsOf base earlier >>= fun built => later.foldlM (PackDefinition.addTo base) built :=
  List.foldlM_append

/-- One definition after the packs built so far: its own pack comes next. -/
theorem foldlM_addTo_cons_eq_ok_iff :
    (d :: later).foldlM (PackDefinition.addTo base) built = .ok packs ↔
      ∃ start, d.startingPack base built = .ok start ∧
        later.foldlM (PackDefinition.addTo base) (built ++ [d.override start]) = .ok packs := by
  rw [List.foldlM_cons, addTo]
  cases d.startingPack base built with
  | error e => simp [bind, Except.bind]
  | ok start => simp [bind, Except.bind, pure, Except.pure]

/-- Packs are only ever added at the end. -/
theorem exists_append_of_foldlM_addTo
    (h : definitions.foldlM (PackDefinition.addTo base) built = .ok packs) :
    ∃ more, packs = built ++ more := by
  induction definitions generalizing built with
  | nil =>
    cases h
    exact ⟨[], (List.append_nil _).symm⟩
  | cons d rest ih =>
    obtain ⟨start, -, hrest⟩ := foldlM_addTo_cons_eq_ok_iff.1 h
    obtain ⟨more, rfl⟩ := ih hrest
    exact ⟨d.override start :: more, List.append_assoc built _ more⟩

/-- A definition in its place: the packs before it are those of the definitions before it, and its
own comes right after them. -/
theorem exists_packsOf_of_split (h : packsOf base (earlier ++ d :: later) = .ok packs) :
    ∃ built start more, packsOf base earlier = .ok built ∧ d.startingPack base built = .ok start ∧
      packs = built ++ d.override start :: more := by
  rw [packsOf_append] at h
  cases hbuilt : packsOf base earlier with
  | error e =>
    rw [hbuilt] at h
    cases h
  | ok built =>
    rw [hbuilt] at h
    obtain ⟨start, hstart, hlater⟩ := foldlM_addTo_cons_eq_ok_iff.1 h
    obtain ⟨more, rfl⟩ := exists_append_of_foldlM_addTo hlater
    exact ⟨built, start, more, rfl, hstart, List.append_assoc built _ more⟩

theorem packsOf_concat (hbuilt : packsOf base definitions = .ok built)
    (hstart : d.startingPack base built = .ok start) :
    packsOf base (definitions ++ [d]) = .ok (built ++ [d.override start]) := by
  rw [packsOf_append, hbuilt]
  exact foldlM_addTo_cons_eq_ok_iff.2 ⟨start, hstart, rfl⟩

/-- Nothing that follows a definition without a pack to start from is looked at. -/
theorem packsOf_eq_error_of_startingPack (hbuilt : packsOf base earlier = .ok built)
    (hstart : d.startingPack base built = .error e) (later : List PackDefinition) :
    packsOf base (earlier ++ d :: later) = .error e := by
  rw [packsOf_append, hbuilt]
  show (d :: later).foldlM (PackDefinition.addTo base) built = .error e
  rw [List.foldlM_cons, addTo, hstart]
  rfl

/-- There is one pack for each definition, in order, and for its language. -/
theorem map_language_of_packsOf (h : packsOf base definitions = .ok packs) :
    packs.map LanguagePack.language = definitions.map languageId := by
  induction definitions using List.reverseRecOn generalizing packs with
  | nil =>
    cases h
    rfl
  | append_singleton earlier d ih =>
    -- The last definition is built after all others, from a pack that has its language.
    obtain ⟨built, start, more, hbuilt, hstart, -⟩ := exists_packsOf_of_split h
    rw [packsOf_concat hbuilt hstart] at h
    cases h
    rw [List.map_append, List.map_append, ih hbuilt, List.map_singleton, List.map_singleton,
      override_language, language_of_startingPack hstart]

theorem length_of_packsOf (h : packsOf base definitions = .ok packs) :
    packs.length = definitions.length := by
  rw [← List.length_map languageId, ← map_language_of_packsOf h, List.length_map]

/-! ### Which definitions have a pack -/

/-- Whether the pack that a definition extends exists: it is for a language that an earlier
definition is for, or one that the registry knows. -/
def PackDefinition.HasKnownBase (base : Registry) (earlier : List PackDefinition)
    (d : PackDefinition) : Prop :=
  ∀ name, d.base = some name →
    (∃ other ∈ earlier, other.languageId = packId name) ∨
      ∃ pack, base.get (Text.lowercase (Text.trim name)) = .ok pack

/-- Whether this is so for all definitions of a list, each with those that stand before it. -/
def BasesKnown (base : Registry) (definitions : List PackDefinition) : Prop :=
  ∀ earlier d later, definitions = earlier ++ d :: later → d.HasKnownBase base earlier

/-- Whether a definition that extends no pack gives a grammar. -/
def PackDefinition.HasGrammar (d : PackDefinition) : Prop :=
  d.base = none → d.grammar ≠ none

theorem basesKnown_nil (base : Registry) : BasesKnown base [] := by
  intro earlier d later h
  simp at h

theorem BasesKnown.of_append (h : BasesKnown base (earlier ++ later)) :
    BasesKnown base earlier := by
  rintro before d after rfl
  exact h before d (after ++ later) (by simp)

/-- The pack that a definition extends exists if it is found among those of the earlier definitions
or in the registry. -/
theorem hasKnownBase_iff (hbuilt : packsOf base earlier = .ok built) :
    d.HasKnownBase base earlier ↔
      ∀ name, d.base = some name → ∃ pack, findBase? base built name = some pack := by
  simp only [HasKnownBase, exists_findBase?_iff, map_language_of_packsOf hbuilt, List.mem_map]

/-- With a grammar, all that a definition can miss is the pack that it extends. -/
theorem startingPack_eq_error_iff_of_hasGrammar (hgrammar : d.HasGrammar)
    (hbuilt : packsOf base earlier = .ok built) :
    d.startingPack base built = .error e ↔
      ∃ name, d.base = some name ∧ ¬ d.HasKnownBase base earlier ∧
        e = .unknownBase d.languageId name := by
  rw [startingPack_eq_error_iff, hasKnownBase_iff hbuilt]
  constructor
  · rintro (⟨name, hbase, hnone, rfl⟩ | ⟨hbase, hmissing, -⟩)
    · refine ⟨name, hbase, fun hfound => ?_, rfl⟩
      obtain ⟨pack, hpack⟩ := hfound name hbase
      rw [hnone] at hpack
      cases hpack
    · -- A definition without a base has a grammar, so this failure cannot happen.
      exact absurd hmissing (hgrammar hbase)
  · rintro ⟨name, hbase, hunknown, rfl⟩
    refine Or.inl ⟨name, hbase, ?_, rfl⟩
    by_contra hfound
    obtain ⟨pack, hpack⟩ := Option.ne_none_iff_exists'.1 hfound
    refine hunknown fun other hother => ?_
    cases hbase.symm.trans hother
    exact ⟨pack, hpack⟩

/-- Where there are packs, every definition had a pack to start from. -/
theorem basesKnown_of_packsOf (h : packsOf base definitions = .ok packs) :
    BasesKnown base definitions := by
  rintro earlier d later rfl
  obtain ⟨built, start, more, hbuilt, hstart, -⟩ := exists_packsOf_of_split h
  rw [hasKnownBase_iff hbuilt]
  intro name hbase
  rcases startingPack_eq_ok_iff.1 hstart with ⟨other, parent, hother, hfound, -⟩ | ⟨_, hnone, -⟩
  · cases hother.symm.trans hbase
    exact ⟨parent, hfound⟩
  · cases hnone.symm.trans hbase

/-- Where every definition has a pack to start from, there are packs. -/
theorem exists_packsOf_of_basesKnown (hgrammar : ∀ d ∈ definitions, d.HasGrammar)
    (h : BasesKnown base definitions) : ∃ packs, packsOf base definitions = .ok packs := by
  induction definitions using List.reverseRecOn with
  | nil => exact ⟨[], rfl⟩
  | append_singleton earlier d ih =>
    obtain ⟨built, hbuilt⟩ := ih (fun other hother => hgrammar other (by simp [hother])) h.of_append
    cases hstart : d.startingPack base built with
    | ok start => exact ⟨_, packsOf_concat hbuilt hstart⟩
    | error e =>
      obtain ⟨name, -, hunknown, -⟩ :=
        (startingPack_eq_error_iff_of_hasGrammar (hgrammar d (by simp)) hbuilt).1 hstart
      -- The only way to fail is an unknown base, and all bases are known.
      exact absurd (h earlier d [] rfl) hunknown

theorem exists_packsOf_iff (hgrammar : ∀ d ∈ definitions, d.HasGrammar) :
    (∃ packs, packsOf base definitions = .ok packs) ↔ BasesKnown base definitions :=
  ⟨fun ⟨_, h⟩ => basesKnown_of_packsOf h, exists_packsOf_of_basesKnown hgrammar⟩

/-- A list of definitions fails at the first one whose base is not known, and for that reason. -/
theorem packsOf_eq_error_iff (hgrammar : ∀ d ∈ definitions, d.HasGrammar) :
    packsOf base definitions = .error e ↔
      ∃ earlier d later name, definitions = earlier ++ d :: later ∧ BasesKnown base earlier ∧
        d.base = some name ∧ ¬ d.HasKnownBase base earlier ∧
          e = .unknownBase d.languageId name := by
  constructor
  · intro h
    induction definitions using List.reverseRecOn with
    | nil => cases h
    | append_singleton earlier d ih =>
      cases hbuilt : packsOf base earlier with
      | error e' =>
        -- The definition was never reached.
        have hsame : e' = e := by
          rw [packsOf_append, hbuilt] at h
          exact Except.error.inj h
        subst hsame
        obtain ⟨before, other, after, name, rfl, hfirst⟩ :=
          ih (fun other hother => hgrammar other (by simp [hother])) hbuilt
        exact ⟨before, other, after ++ [d], name, by simp, hfirst⟩
      | ok built =>
        cases hstart : d.startingPack base built with
        | ok start =>
          rw [packsOf_concat hbuilt hstart] at h
          cases h
        | error e' =>
          rw [packsOf_eq_error_of_startingPack hbuilt hstart] at h
          cases h
          obtain ⟨name, hbase, hunknown, he⟩ :=
            (startingPack_eq_error_iff_of_hasGrammar (hgrammar d (by simp)) hbuilt).1 hstart
          exact ⟨earlier, d, [], name, rfl, basesKnown_of_packsOf hbuilt, hbase, hunknown, he⟩
  · rintro ⟨earlier, d, later, name, rfl, hknown, hbase, hunknown, he⟩
    obtain ⟨built, hbuilt⟩ := exists_packsOf_of_basesKnown
      (fun other hother => hgrammar other (by simp [hother])) hknown
    refine packsOf_eq_error_of_startingPack hbuilt ?_ later
    exact (startingPack_eq_error_iff_of_hasGrammar (hgrammar d (by simp)) hbuilt).2
      ⟨name, hbase, hunknown, he⟩

/-! ### Files and registries -/

/-- A file without issues gives a grammar where one is needed. -/
theorem PackFile.IsValid.hasGrammar {file : PackFile} (h : file.IsValid)
    (hd : d ∈ file.definitions) : d.HasGrammar := by
  intro hbase hgrammar
  have hissue : PackIssue.noGrammar d.label? ∈ file.issues := by
    refine List.mem_append_right _ (List.mem_flatMap.2 ⟨d, hd, ?_⟩)
    simp [PackDefinition.issues, hbase, hgrammar]
  rw [show file.issues = [] from h] at hissue
  cases hissue

/-- The pack of a language in a registry that took up more packs: the last of these for the
language, or else the one that was there. -/
theorem Registry.get?_packs_withPacks (r : Registry) (packs : List LanguagePack)
    (language : String) :
    (r.withPacks packs).packs.get? language =
      (latest? packs.reverse language).or (r.packs.get? language) := by
  induction packs using List.reverseRecOn with
  | nil => rfl
  | append_singleton packs pack ih =>
    rw [withPacks, List.foldl_append]
    show ((r.withPacks packs).insert pack).packs.get? language = _
    rw [Registry.insert, KeyTable.get?_insert, ih, List.reverse_append, latest?, latest?]
    by_cases h : pack.language = language <;> simp [h]

/-- A pack stays in its place when packs for other languages follow it. -/
theorem Registry.get?_packs_withPacks_of_last (r : Registry) {before after : List LanguagePack}
    {pack : LanguagePack} (h : ∀ other ∈ after, other.language ≠ pack.language) :
    (r.withPacks (before ++ pack :: after)).packs.get? pack.language = some pack := by
  have hnone : (after.reverse.find? fun other => other.language = pack.language) = none := by
    simpa using h
  rw [get?_packs_withPacks, latest?]
  simp [hnone]

theorem Registry.get?_packs_withPacks_of_notMem (r : Registry) {packs : List LanguagePack}
    {language : String} (h : language ∉ packs.map LanguagePack.language) :
    (r.withPacks packs).packs.get? language = r.packs.get? language := by
  have hnone : latest? packs.reverse language = none := by
    rw [latest?, List.find?_eq_none]
    intro pack hpack hsame
    have hlanguage : pack.language = language := by simpa using hsame
    exact h (hlanguage ▸ List.mem_map_of_mem (List.mem_reverse.1 hpack))
  rw [get?_packs_withPacks, hnone, Option.none_or]

/-- Where there are packs, the definition of a language that no later one is for has its pack
stored. -/
theorem exists_stored_of_split (h : packsOf base (earlier ++ d :: later) = .ok packs) :
    ∃ start, d.startingPack base (packs.take earlier.length) = .ok start ∧
      packs[earlier.length]? = some (d.override start) ∧
      ((∀ other ∈ later, other.languageId ≠ d.languageId) →
        (base.withPacks packs).packs.get? d.languageId = some (d.override start)) := by
  have hlanguages := map_language_of_packsOf h
  obtain ⟨built, start, more, hbuilt, hstart, rfl⟩ := exists_packsOf_of_split h
  have hlength := length_of_packsOf hbuilt
  refine ⟨start, ?_, ?_, fun hlast => ?_⟩
  · rw [← hlength, List.take_left]
    exact hstart
  · rw [← hlength]
    simp
  · have hmore : more.map LanguagePack.language = later.map languageId := by
      have hboth := hlanguages
      rw [List.map_append, List.map_append, ← map_language_of_packsOf hbuilt] at hboth
      exact (List.cons.inj (List.append_cancel_left hboth)).2
    have hsame : (d.override start).language = d.languageId := by
      rw [override_language, language_of_startingPack hstart]
    rw [← hsame]
    -- No later pack has this language, so the one stored for it is the last.
    refine base.get?_packs_withPacks_of_last fun other hother => ?_
    have hmem : other.language ∈ later.map languageId := hmore ▸ List.mem_map_of_mem hother
    obtain ⟨definition, hdefinition, heq⟩ := List.mem_map.1 hmem
    rw [hsame, ← heq]
    exact hlast definition hdefinition

/-- **A file without issues fails to build in one way only.**  There are packs exactly if every
definition that extends a pack names the language of an earlier definition, whatever the case and
the blanks around, or a name that the registry knows.  Otherwise the first one that does not is
reported with the name as written, and never a missing grammar.  The packs are one for each
definition, in order, and a registry that takes them up has for every language of the file the pack
of the last definition for it, and for every other language the pack that it had. -/
theorem PackFile.build_total (file : PackFile) (hvalid : file.IsValid) (base : Registry) :
    ((∃ packs, file.build base = .ok packs) ↔ BasesKnown base file.definitions) ∧
    (∀ e, file.build base = .error e ↔
      ∃ earlier d later name, file.definitions = earlier ++ d :: later ∧ BasesKnown base earlier ∧
        d.base = some name ∧ ¬ d.HasKnownBase base earlier ∧ e = .unknownBase d.languageId name) ∧
    (∀ name, file.build base ≠ .error (.unsupportedLanguage name)) ∧
    ∀ packs, file.build base = .ok packs →
      file.mergeInto base = .ok (base.withPacks packs) ∧
      packs.map LanguagePack.language = file.definitions.map languageId ∧
      (∀ earlier d later, file.definitions = earlier ++ d :: later →
        ∃ start, d.startingPack base (packs.take earlier.length) = .ok start ∧
          packs[earlier.length]? = some (d.override start) ∧
          ((∀ other ∈ later, other.languageId ≠ d.languageId) →
            (base.withPacks packs).packs.get? d.languageId = some (d.override start))) ∧
      ∀ language, (∀ d ∈ file.definitions, d.languageId ≠ language) →
        (base.withPacks packs).packs.get? language = base.packs.get? language := by
  have hgrammar : ∀ d ∈ file.definitions, d.HasGrammar := fun d hd => hvalid.hasGrammar hd
  have herror : ∀ e, file.build base = .error e ↔ _ := fun e => packsOf_eq_error_iff hgrammar
  refine ⟨exists_packsOf_iff hgrammar, herror, fun name hname => ?_, fun packs hpacks => ?_⟩
  · -- Every failure is that of an unknown base.
    obtain ⟨_, _, _, _, _, _, _, _, he⟩ := (herror _).1 hname
    cases he
  · have hlanguages := map_language_of_packsOf hpacks
    refine ⟨by rw [mergeInto, hpacks], hlanguages, fun earlier d later hsplit => ?_,
      fun language hother => base.get?_packs_withPacks_of_notMem fun hmem => ?_⟩
    · rw [build, hsplit] at hpacks
      exact exists_stored_of_split hpacks
    · rw [hlanguages] at hmem
      obtain ⟨d, hd, hsame⟩ := List.mem_map.1 hmem
      exact hother d hd hsame

/-- A definition that gives nothing but its language. -/
def PackDefinition.bare (language : Text) : PackDefinition where
  language := language
  base := none
  grammar := none
  extensions := []
  queries := ⟨none, none, none, none⟩
  kindMap := .empty
  bodyMap := .empty
  stringUnwrap := none
  indentUnit := none

/-- Whether there are packs can be found out by building them. -/
theorem PackFile.exists_build_of_isOk {file : PackFile} (h : (file.build base).isOk = true) :
    ∃ packs, file.build base = .ok packs := by
  cases hbuilt : file.build base with
  | ok packs => exact ⟨packs, rfl⟩
  | error e =>
    rw [hbuilt] at h
    cases h

/-- Three definitions for two languages, with names that differ in case and blanks from the
languages that they are for.  The last one is for the language of the first, and extends the
second. -/
def dialects : PackFile where
  name := none
  description := none
  definitions :=
    [{ bare " Lox".toList with
        grammar := some .javascript
        queries := ⟨some "(program) @p".toList, none, none, none⟩ },
      { bare "Sub".toList with
        base := some "\tLOX".toList },
      { bare "lox".toList with
        base := some "SUB ".toList
        indentUnit := some ['\t'] }]

/-- The last two of them alone: the first one names no pack. -/
def orphans : PackFile :=
  { dialects with definitions := dialects.definitions.tail }

/-- A registry with one pack ends up with two more, the pack of the last definition among them. -/
theorem PackFile.build_total_dialects :
    dialects.IsValid ∧ BasesKnown (.ofPacks [.plain "c" .rust]) dialects.definitions ∧
      (∃ packs stored, dialects.mergeInto (.ofPacks [.plain "c" .rust]) =
          .ok ((Registry.ofPacks [.plain "c" .rust]).withPacks packs) ∧
        packs.map LanguagePack.language = ["lox", "sub", "lox"] ∧
        ((Registry.ofPacks [.plain "c" .rust]).withPacks packs).packs.get? "lox" = some stored ∧
        stored.indentUnit = ['\t'] ∧
        ((Registry.ofPacks [.plain "c" .rust]).withPacks packs).packs.get? "c" =
          some (.plain "c" .rust)) ∧
      orphans.IsValid ∧
      orphans.build Registry.empty = .error (.unknownBase "sub" "\tLOX".toList) := by
  have hdialects : dialects.IsValid := by
    show dialects.issues = []
    decide
  have horphans : orphans.IsValid := by
    show orphans.issues = []
    decide
  obtain ⟨hknown, -, -, hstored⟩ := build_total dialects hdialects (.ofPacks [.plain "c" .rust])
  obtain ⟨-, herror, -, -⟩ := build_total orphans horphans Registry.empty
  obtain ⟨packs, hpacks⟩ : ∃ packs, dialects.build (.ofPacks [.plain "c" .rust]) = .ok packs :=
    exists_build_of_isOk (by decide +kernel)
  refine ⟨hdialects, hknown.1 ⟨packs, hpacks⟩, ?_, horphans, ?_⟩
  · obtain ⟨hmerged, hlanguages, hplaces, hothers⟩ := hstored packs hpacks
    obtain ⟨start, -, -, hlast⟩ := hplaces (dialects.definitions.take 2) _ [] rfl
    refine ⟨packs, _, hmerged, hlanguages.trans (by decide +kernel), hlast (by simp), ?_,
      (hothers "c" (by decide +kernel)).trans (by decide +kernel)⟩
    rw [override_eq]
    rfl
  · refine (herror _).2 ⟨[], _, _, _, rfl, basesKnown_nil _, rfl, fun hbase => ?_, rfl⟩
    rcases hbase _ rfl with ⟨_, hmem, -⟩ | ⟨pack, hpack⟩
    · cases hmem
    · cases hpack

end SyntaxEdit
