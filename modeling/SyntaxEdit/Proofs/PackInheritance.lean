/-
What a built pack knows, read off the definitions of its file.

A pack is a copy of another one with a few parts overridden, and that one may be such a copy itself.
Here the copies are taken apart again: whatever is asked of a pack, the first definition on the way
from its own to the ones it extends answers if it can, and the pack of the registry at the end if
none of them does.

* `Ancestry`, `ancestryOfName`, `ancestry` — the definitions that a name or a definition goes back
  to, and the pack of the registry that they end in;
* `Ancestry.Yields` — the pack that an ancestry makes, copy by copy; `yields_ancestryOfName` — those
  of a file are made in this way;
* `Ancestry.nearest`, `IsInherited` — the answer of the first definition that gives one, and what
  one override has to respect for it;
* `Ancestry.Yields.determines` — all that a pack knows but its extensions is answered so;
* `PackFile.build_nearest` — for every definition of a file.
-/
import SyntaxEdit.Proofs.PackBuilding

namespace SyntaxEdit

open PackDefinition

variable {β : Type} {base : Registry} {d : PackDefinition} {start parent pack : LanguagePack}
  {built packs : List LanguagePack} {definitions newestFirst : List PackDefinition} {name : Text}

/-! ### Ancestries -/

/-- Definitions that each extend the next one, and the pack of a registry that the last one extends,
if it does extend one. -/
structure Ancestry where
  definitions : List PackDefinition
  root : Option LanguagePack
deriving DecidableEq

namespace Ancestry

/-- The ancestry of a definition that extends the first one. -/
def cons (d : PackDefinition) (a : Ancestry) : Ancestry :=
  { a with definitions := d :: a.definitions }

/-- What the first definition that gives something gives, or else what is known of the root; without
one it is missing. -/
def nearest (a : Ancestry) (given : PackDefinition → Option β) (known : LanguagePack → β)
    (missing : β) : β :=
  (a.definitions.findSome? given).getD (a.root.elim missing known)

theorem nearest_cons (d : PackDefinition) (a : Ancestry) (given : PackDefinition → Option β)
    (known : LanguagePack → β) (missing : β) :
    (a.cons d).nearest given known missing = (given d).getD (a.nearest given known missing) := by
  cases h : given d <;> simp [nearest, cons, h]

end Ancestry

/-- The definitions that a name leads to, and what they end in.  The name is looked for among some
definitions, the latest first, and then in a registry; a definition that is found can only extend
what comes before it. -/
def ancestryOfName (base : Registry) : List PackDefinition → Text → Ancestry
  | [], name => ⟨[], base.get? (Text.lowercase (Text.trim name))⟩
  | d :: earlier, name =>
    if d.languageId = packId name then
      match d.base with
      | some parent => (ancestryOfName base earlier parent).cons d
      | none => ⟨[d], none⟩
    else ancestryOfName base earlier name

/-- A definition with those that it goes back to, and what they end in. -/
def ancestry (base : Registry) (newestFirst : List PackDefinition)
    (d : PackDefinition) : Ancestry :=
  match d.base with
  | some name => (ancestryOfName base newestFirst name).cons d
  | none => ⟨[d], none⟩

theorem ancestryOfName_cons (base : Registry) (newestFirst : List PackDefinition)
    (d : PackDefinition) (name : Text) :
    ancestryOfName base (d :: newestFirst) name =
      if d.languageId = packId name then ancestry base newestFirst d
      else ancestryOfName base newestFirst name := rfl

/-! ### The pack of an ancestry -/

/-- The pack that an ancestry makes: the definitions take turns to copy the pack made so far and to
override parts of it, the nearest one last. -/
inductive Ancestry.Yields : Ancestry → LanguagePack → Prop
  | root (pack : LanguagePack) : Yields ⟨[], some pack⟩ pack
  | plain {d : PackDefinition} {grammar : Grammar} (hbase : d.base = none)
      (hgrammar : d.grammar = some grammar) :
      Yields ⟨[d], none⟩ (d.override (.plain d.languageId grammar))
  | derive {d : PackDefinition} {name : Text} {a : Ancestry} {parent : LanguagePack}
      (hbase : d.base = some name) (hparent : Yields a parent) :
      Yields (a.cons d) (d.override (parent.derive d.languageId (d.grammar.getD parent.grammar)))

/-- One definition: if the names before it lead to packs that their ancestries make, so does it. -/
theorem yields_ancestry (hstart : d.startingPack base built = .ok start)
    (hparent : ∀ name parent, findBase? base built name = some parent →
      (ancestryOfName base newestFirst name).Yields parent) :
    (ancestry base newestFirst d).Yields (d.override start) := by
  rw [ancestry]
  rcases startingPack_eq_ok_iff.1 hstart with
    ⟨name, parent, hbase, hfound, rfl⟩ | ⟨grammar, hbase, hgrammar, rfl⟩
  · rw [hbase]
    exact .derive hbase (hparent name parent hfound)
  · rw [hbase]
    exact .plain hbase hgrammar

/-- All definitions: a name leads to the pack that its ancestry makes. -/
theorem yields_ancestryOfName (hbuilt : packsOf base definitions = .ok built)
    (hfound : findBase? base built name = some parent) :
    (ancestryOfName base definitions.reverse name).Yields parent := by
  induction definitions using List.reverseRecOn generalizing built name parent with
  | nil =>
    cases hbuilt
    rw [findBase?_nil] at hfound
    show Ancestry.Yields ⟨[], base.get? (Text.lowercase (Text.trim name))⟩ parent
    rw [hfound]
    exact .root parent
  | append_singleton earlier d ih =>
    obtain ⟨before, start, more, hbefore, hstart, -⟩ := exists_packsOf_of_split hbuilt
    rw [packsOf_concat hbefore hstart] at hbuilt
    cases hbuilt
    have hearlier : ∀ name parent, findBase? base before name = some parent →
        (ancestryOfName base earlier.reverse name).Yields parent :=
      fun name parent => ih hbefore
    rw [List.reverse_append, List.reverse_singleton, List.singleton_append, ancestryOfName_cons]
    rw [findBase?_concat, override_language, language_of_startingPack hstart] at hfound
    -- The latest definition is the first to be looked at on both sides.
    split at hfound
    · rename_i hsame
      cases hfound
      rw [if_pos hsame]
      exact yields_ancestry hstart hearlier
    · rename_i hdiffers
      rw [if_neg hdiffers]
      exact hearlier name parent hfound

/-! ### One override -/

/-- Whether something that is known of packs is inherited: a definition that gives it decides, and
one that does not leaves what the pack it extends has, or what is missing from a new pack. -/
structure IsInherited (given : PackDefinition → Option β) (known : LanguagePack → β)
    (missing : β) : Prop where
  of_plain : ∀ {d : PackDefinition} {grammar}, d.grammar = some grammar →
    known (d.override (.plain d.languageId grammar)) = (given d).getD missing
  of_derive : ∀ (d : PackDefinition) (parent : LanguagePack),
    known (d.override (parent.derive d.languageId (d.grammar.getD parent.grammar))) =
      (given d).getD (known parent)

/-- What an override changes only where it is given, and a copy for another language keeps. -/
theorem IsInherited.of_override {given : PackDefinition → Option β} {known : LanguagePack → β}
    {missing : β}
    (hoverride : ∀ (d : PackDefinition) (pack : LanguagePack),
      known (d.override pack) = (given d).getD (known pack))
    (hplain : ∀ language grammar, known (.plain language grammar) = missing)
    (hderive : ∀ (parent : LanguagePack) language grammar,
      known (parent.derive language grammar) = known parent) : IsInherited given known missing where
  of_plain := by
    intro d grammar _
    rw [hoverride, hplain]
  of_derive := by
    intro d parent
    rw [hoverride, hderive]

theorem isInherited_kindOf (rawType : String) :
    IsInherited (fun d => d.kindMap.get? rawType) (fun pack => pack.kindOf rawType) .unknown := by
  refine .of_override (fun d pack => ?_) (fun _ _ => rfl) (fun _ _ _ => rfl)
  rw [override_eq, LanguagePack.kindOf, KeyTable.get?_insertAll]
  exact Option.getD_or

theorem isInherited_rulesOf (rawType : String) :
    IsInherited (fun d => d.bodyMap.get? rawType) (fun pack => pack.rulesOf rawType) [] := by
  refine .of_override (fun d pack => ?_) (fun _ _ => rfl) (fun _ _ _ => rfl)
  rw [override_eq, LanguagePack.rulesOf, KeyTable.get?_insertAll]
  exact Option.getD_or

theorem isInherited_query (category : QueryCategory) :
    IsInherited (fun d => d.queries.get category) (fun pack => pack.queries.get category) [] := by
  refine .of_override (fun d pack => ?_) (fun _ _ => ?_) (fun _ _ _ => rfl)
  · rw [override_eq, overrideQueries_eq]
    cases category <;> rfl
  · cases category <;> rfl

theorem isInherited_stringUnwrap :
    IsInherited (fun d => d.stringUnwrap.map fun childType => some (String.ofList childType))
      LanguagePack.stringUnwrap none := by
  refine .of_override (fun d pack => ?_) (fun _ _ => rfl) (fun _ _ _ => rfl)
  rw [override_eq]
  cases d.stringUnwrap <;> rfl

theorem isInherited_indentUnit :
    IsInherited PackDefinition.indentUnit LanguagePack.indentUnit "    ".toList := by
  refine .of_override (fun d pack => ?_) (fun _ _ => rfl) (fun _ _ _ => rfl)
  rw [override_eq]

/-- The grammar is chosen before anything is overridden, and a definition that extends no pack gives
one. -/
theorem isInherited_grammar :
    IsInherited (fun d => d.grammar.map some) (fun pack => some pack.grammar) none where
  of_plain := by
    intro d grammar hgrammar
    rw [override_eq, hgrammar]
    rfl
  of_derive := by
    intro d parent
    rw [override_eq]
    cases hgrammar : d.grammar <;> simp [LanguagePack.derive]

/-! ### All that a pack knows -/

/-- Along an ancestry, the first definition that gives something decides. -/
theorem IsInherited.eq_nearest {given : PackDefinition → Option β} {known : LanguagePack → β}
    {missing : β} (h : IsInherited given known missing) {a : Ancestry} (hpack : a.Yields pack) :
    known pack = a.nearest given known missing := by
  induction hpack with
  | root pack => rfl
  | @plain d grammar hbase hgrammar =>
    rw [h.of_plain hgrammar]
    cases hgiven : given d <;> simp [Ancestry.nearest, hgiven]
  | derive hbase hparent ih => rw [h.of_derive, ih, Ancestry.nearest_cons]

/-- An ancestry that makes a pack ends in a root, or in a definition that extends nothing. -/
theorem Ancestry.Yields.root_eq_none_iff {a : Ancestry} (h : a.Yields pack) :
    a.root = none ↔ ∃ last, a.definitions.getLast? = some last ∧ last.base = none := by
  induction h with
  | root pack => simp
  | plain hbase hgrammar => simp [hbase]
  | @derive d name a parent hbase hparent ih =>
    show a.root = none ↔ ∃ last, (d :: a.definitions).getLast? = some last ∧ last.base = none
    rw [ih, List.getLast?_cons]
    cases a.definitions.getLast? <;> simp [hbase]

/-- Whether an ancestry tells all that a pack knows: each time the nearest definition that gives it
does, or else the root, or else it is as in a pack that knows nothing. -/
structure Ancestry.Determines (a : Ancestry) (pack : LanguagePack) : Prop where
  root_eq_none_iff :
    a.root = none ↔ ∃ last, a.definitions.getLast? = some last ∧ last.base = none
  kindOf : ∀ rawType, pack.kindOf rawType =
    a.nearest (fun d => d.kindMap.get? rawType) (fun root => root.kindOf rawType) .unknown
  rulesOf : ∀ rawType, pack.rulesOf rawType =
    a.nearest (fun d => d.bodyMap.get? rawType) (fun root => root.rulesOf rawType) []
  query : ∀ category, pack.queries.get category =
    a.nearest (fun d => d.queries.get category) (fun root => root.queries.get category) []
  stringUnwrap : pack.stringUnwrap =
    a.nearest (fun d => d.stringUnwrap.map fun childType => some (String.ofList childType))
      LanguagePack.stringUnwrap none
  indentUnit : pack.indentUnit =
    a.nearest PackDefinition.indentUnit LanguagePack.indentUnit "    ".toList
  grammar : some pack.grammar =
    a.nearest (fun d => d.grammar.map some) (fun root => some root.grammar) none

theorem Ancestry.Yields.determines {a : Ancestry} (h : a.Yields pack) : a.Determines pack where
  root_eq_none_iff := h.root_eq_none_iff
  kindOf := fun rawType => (isInherited_kindOf rawType).eq_nearest h
  rulesOf := fun rawType => (isInherited_rulesOf rawType).eq_nearest h
  query := fun category => (isInherited_query category).eq_nearest h
  stringUnwrap := isInherited_stringUnwrap.eq_nearest h
  indentUnit := isInherited_indentUnit.eq_nearest h
  grammar := isInherited_grammar.eq_nearest h

/-- **Packs inherit from the nearest definition.**  When the packs of a file can be built, there is
one for each definition, and the ancestry of the definition tells all that its pack knows: the kind
and the rules of every node type, every query, how strings are unwrapped, the level of indentation
and the grammar.  Only the extensions are the definition's own, without dots in front and in
lowercase. -/
theorem PackFile.build_nearest {file : PackFile} {base : Registry} {packs : List LanguagePack}
    (hbuilt : file.build base = .ok packs) :
    packs.length = file.definitions.length ∧
    ∀ earlier d later, file.definitions = earlier ++ d :: later →
      ∃ pack, packs[earlier.length]? = some pack ∧
        pack.language = d.languageId ∧
        pack.extensions = (d.extensions.map String.ofList).map LanguagePack.normalizeExtension ∧
        (ancestry base earlier.reverse d).Determines pack := by
  refine ⟨length_of_packsOf hbuilt, fun earlier d later hsplit => ?_⟩
  rw [build, hsplit] at hbuilt
  obtain ⟨built, start, more, hbefore, hstart, rfl⟩ := exists_packsOf_of_split hbuilt
  -- The base of a definition was built before it, from the definitions in front of it.
  have hyields : (ancestry base earlier.reverse d).Yields (d.override start) := by
    refine yields_ancestry hstart fun name parent hfound => ?_
    exact yields_ancestryOfName hbefore hfound
  refine ⟨d.override start, ?_, ?_, ?_, hyields.determines⟩
  · rw [← length_of_packsOf hbefore]
    simp
  · rw [override_language, language_of_startingPack hstart]
  · rw [override_eq]

/-- A pack for a script language. -/
def scriptPack : LanguagePack :=
  ((LanguagePack.plain "js" .javascript).withKinds
    [("block", .block), ("class", .classType), ("lambda", .method)]).withIndentUnit "  ".toList

/-- A pack that is overridden, and overridden again by way of another that extends it. -/
def layers : PackFile where
  name := none
  description := none
  definitions :=
    [{ bare "JS".toList with
        base := some "js".toList
        extensions := [".ONE".toList]
        kindMap := .ofList [("lambda", .function), ("class", .unknown)] },
      { bare "es".toList with
        base := some " Js".toList
        grammar := some .typescript
        indentUnit := some ['\t'] },
      { bare "js".toList with
        base := some "ES".toList
        kindMap := .ofList [("class", .interface)] }]

/-- The last pack goes back to all three definitions and then to the registry, and takes something
from each of them. -/
theorem PackFile.build_nearest_layers :
    ∃ packs pack, layers.build (.ofPacks [scriptPack]) = .ok packs ∧ packs[2]? = some pack ∧
      pack.extensions = [] ∧ pack.kindOf "class" = .interface ∧ pack.kindOf "lambda" = .function ∧
      pack.kindOf "block" = .block ∧ pack.kindOf "field" = .unknown ∧
      pack.indentUnit = ['\t'] ∧ some pack.grammar = some .typescript := by
  obtain ⟨packs, hpacks⟩ : ∃ packs, layers.build (.ofPacks [scriptPack]) = .ok packs :=
    exists_build_of_isOk (by decide +kernel)
  obtain ⟨-, hdefinitions⟩ := build_nearest hpacks
  obtain ⟨pack, hpack, -, hextensions, hknown⟩ :=
    hdefinitions (layers.definitions.take 2) layers.definitions[2] [] rfl
  have hancestry : ancestry (.ofPacks [scriptPack]) (layers.definitions.take 2).reverse
      layers.definitions[2] = ⟨layers.definitions.reverse, some scriptPack⟩ := by decide +kernel
  rw [hancestry] at hknown
  exact ⟨packs, pack, hpacks, hpack, hextensions, hknown.kindOf "class",
    hknown.kindOf "lambda", hknown.kindOf "block", hknown.kindOf "field", hknown.indentUnit,
    hknown.grammar⟩

end SyntaxEdit
