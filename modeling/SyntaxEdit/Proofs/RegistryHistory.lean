/-
What a registry finds, by the packs that it ever took up.

A registry keeps one table of packs by language and one of languages by file extension.  Later packs
replace earlier ones in both, but not in step: a pack that replaces another for its language leaves
the extensions of that one in place, and a pack can take an extension from another language.

* `Registry.latest?`, `Registry.languageOf` — the pack of a language and the language of a key, read
  off the list of all packs, the latest first;
* `Records` — both tables agree with such a list, `Records.insert` and `Records.withPacks` preserve
  it;
* `Records.get?_eq` — so the list alone decides what a name leads to;
* `get_lastWriter` — the same for every registry that can be made.
-/
import SyntaxEdit.Language.Registry

namespace SyntaxEdit

namespace Registry

variable {r : Registry} {history more : List LanguagePack} {pack : LanguagePack}
  {key language : String} {name : Text}

/-- The latest pack for a language. -/
def latest? (history : List LanguagePack) (language : String) : Option LanguagePack :=
  history.find? fun pack => pack.language = language

/-- The latest pack that lists a key among its extensions. -/
def latestListing? (history : List LanguagePack) (key : String) : Option LanguagePack :=
  history.find? fun pack => key ∈ pack.extensions

/-- The language that a key stands for: that of the latest pack that lists the key, or the key
itself if none does. -/
def languageOf (history : List LanguagePack) (key : String) : String :=
  ((latestListing? history key).map LanguagePack.language).getD key

theorem exists_latest?_iff :
    (∃ pack, latest? history language = some pack) ↔
      ∃ pack ∈ history, pack.language = language := by
  rw [← Option.isSome_iff_exists, latest?, List.find?_isSome]
  simp

theorem mem_of_latestListing? (h : latestListing? history key = some pack) :
    pack ∈ history ∧ key ∈ pack.extensions :=
  ⟨List.mem_of_find?_eq_some h, by simpa using List.find?_some h⟩

theorem latestListing?_eq_none_iff :
    latestListing? history key = none ↔ ∀ pack ∈ history, key ∉ pack.extensions := by
  rw [latestListing?, List.find?_eq_none]
  simp

/-- A key leads to a pack if there is one for it as a language, or one that lists it. -/
theorem exists_latest?_languageOf_iff :
    (∃ pack, latest? history (languageOf history key) = some pack) ↔
      ∃ pack ∈ history, pack.language = key ∨ key ∈ pack.extensions := by
  rw [exists_latest?_iff, languageOf]
  cases hlisting : latestListing? history key with
  | some listing =>
    obtain ⟨hmem, hkey⟩ := mem_of_latestListing? hlisting
    constructor
    · intro _
      exact ⟨listing, hmem, Or.inr hkey⟩
    · intro _
      exact ⟨listing, hmem, rfl⟩
  | none =>
    -- No pack lists the key as an extension, so it stands for itself.
    have hnone := latestListing?_eq_none_iff.1 hlisting
    constructor
    · rintro ⟨pack, hpack, hlanguage⟩
      exact ⟨pack, hpack, Or.inl hlanguage⟩
    · rintro ⟨pack, hpack, hlanguage | hkey⟩
      · exact ⟨pack, hpack, hlanguage⟩
      · exact absurd hkey (hnone pack hpack)

/-! ### The tables -/

/-- Whether a registry has taken up some packs, the latest first: each table has at every key what
the latest of the packs put there. -/
structure Records (history : List LanguagePack) (r : Registry) : Prop where
  packs_eq : ∀ language, r.packs.get? language = latest? history language
  aliases_eq : ∀ key, r.aliases.get? key = (latestListing? history key).map LanguagePack.language

theorem records_empty : Records [] empty :=
  ⟨fun _ => rfl, fun _ => rfl⟩

theorem Records.insert (h : Records history r) (pack : LanguagePack) :
    Records (pack :: history) (r.insert pack) := by
  refine ⟨fun language => ?_, fun key => ?_⟩
  · rw [Registry.insert, KeyTable.get?_insert, latest?, List.find?_cons, h.packs_eq]
    -- The pack is the latest of its language, and an older one stays the latest of any other.
    by_cases hlanguage : pack.language = language
    · simp [hlanguage]
    · simp [hlanguage, latest?]
  · rw [Registry.insert, KeyTable.get?_insertAll_const, latestListing?, List.find?_cons,
      h.aliases_eq]
    by_cases hkey : key ∈ pack.extensions
    · simp [hkey]
    · simp [hkey, latestListing?]

theorem Records.withPacks (h : Records history r) (packs : List LanguagePack) :
    Records (packs.reverse ++ history) (r.withPacks packs) := by
  induction packs generalizing r history with
  | nil => exact h
  | cons pack rest ih =>
    rw [List.reverse_cons, List.append_assoc]
    exact ih (h.insert pack)

/-- Merges are taken up one after the other. -/
theorem Records.merges (h : Records history r) (merges : List (List LanguagePack)) :
    Records (merges.flatten.reverse ++ history) (merges.foldl Registry.withPacks r) := by
  induction merges generalizing r history with
  | nil => exact h
  | cons packs rest ih =>
    rw [List.flatten_cons, List.reverse_append, List.append_assoc]
    exact ih (h.withPacks packs)

/-! ### Look-up -/

/-- An extension always stands for a language that there is a pack for. -/
theorem Records.exists_pack_of_alias (h : Records history r)
    (halias : r.aliases.get? key = some language) : ∃ pack, r.packs.get? language = some pack := by
  rw [h.aliases_eq] at halias
  obtain ⟨listing, hlisting, rfl⟩ := Option.map_eq_some_iff.1 halias
  rw [h.packs_eq]
  exact exists_latest?_iff.2 ⟨listing, (mem_of_latestListing? hlisting).1, rfl⟩

/-- So a name that is no language by way of the extensions is none by itself. -/
theorem Records.get?_eq_none_of_alias (h : Records history r)
    (hnone : r.packs.get? ((r.aliases.get? key).getD key) = none) : r.packs.get? key = none := by
  cases halias : r.aliases.get? key with
  | none =>
    rw [halias] at hnone
    exact hnone
  | some language =>
    obtain ⟨pack, hpack⟩ := h.exists_pack_of_alias halias
    rw [halias, Option.getD_some, hpack] at hnone
    cases hnone

/-- The packs that were taken up decide what a name leads to. -/
theorem Records.get?_eq (h : Records history r) (name : Text) :
    r.get? name = latest? history (languageOf history (normalizeName name)) := by
  have hfirst : r.packs.get? ((r.aliases.get? (normalizeName name)).getD (normalizeName name)) =
      latest? history (languageOf history (normalizeName name)) := by
    rw [h.packs_eq, h.aliases_eq, languageOf]
  rw [← hfirst, get?]
  -- The second look-up is for nothing: where the first one fails, so does it.
  cases hfound : r.packs.get? ((r.aliases.get? (normalizeName name)).getD (normalizeName name)) with
  | some pack => rfl
  | none => exact h.get?_eq_none_of_alias hfound

theorem Records.get_eq_ok_iff (h : Records history r) :
    r.get name = .ok pack ↔
      latest? history (languageOf history (normalizeName name)) = some pack := by
  rw [get, h.get?_eq]
  cases latest? history (languageOf history (normalizeName name)) <;> simp

/-- More packs take no name away. -/
theorem Records.exists_get_withPacks (h : Records history r) (packs : List LanguagePack)
    (hname : r.get name = .ok pack) : ∃ later, (r.withPacks packs).get name = .ok later := by
  -- Some pack in the list makes the name known, though not always the one that it leads to; and the
  -- list only grows.
  obtain ⟨known, hknown, hkey⟩ := exists_latest?_languageOf_iff.1 ⟨pack, h.get_eq_ok_iff.1 hname⟩
  obtain ⟨later, hlater⟩ := exists_latest?_languageOf_iff.2
    ⟨known, List.mem_append_right packs.reverse hknown, hkey⟩
  exact ⟨later, (h.withPacks packs).get_eq_ok_iff.2 hlater⟩

theorem Records.mem_languages_iff (h : Records history r) :
    language ∈ r.languages ↔ ∃ pack ∈ history, pack.language = language := by
  rw [languages, KeyTable.mem_keys_iff, h.packs_eq]
  exact exists_latest?_iff

/-! ### Every registry -/

/-- A registry of some packs, over which more packs were merged several times. -/
def merged (first : List LanguagePack) (merges : List (List LanguagePack)) : Registry :=
  merges.foldl withPacks (ofPacks first)

/-- All packs that such a registry has taken up, the latest first. -/
def takenUp (first : List LanguagePack) (merges : List (List LanguagePack)) : List LanguagePack :=
  (first ++ merges.flatten).reverse

theorem records_merged (first : List LanguagePack) (merges : List (List LanguagePack)) :
    Records (takenUp first merges) (merged first merges) := by
  have h := (records_empty.withPacks first).merges merges
  rw [List.append_nil, ← List.reverse_append] at h
  exact h

/-- **In a registry the latest pack wins.**  A name stands for the language of the latest pack that
lists it, or for itself, and leads to the latest pack for that language; where there is none, the
name as it was given is not supported.  Extensions never stand for a language without a pack, the
languages are those of all packs in ascending order, each once, and merges take no name away. -/
theorem get_lastWriter (first : List LanguagePack) (merges : List (List LanguagePack)) :
    (∀ name, (merged first merges).get name =
      (latest? (takenUp first merges)
        (languageOf (takenUp first merges) (normalizeName name))).elim
          (.error (.unsupportedLanguage name)) .ok) ∧
    (∀ key language, (merged first merges).aliases.get? key = some language →
      ∃ pack, (merged first merges).packs.get? language = some pack) ∧
    (∀ key, (merged first merges).packs.get?
        (((merged first merges).aliases.get? key).getD key) = none →
      (merged first merges).packs.get? key = none) ∧
    (merged first merges).languages.Pairwise (· < ·) ∧
    (∀ language, language ∈ (merged first merges).languages ↔
      ∃ pack ∈ takenUp first merges, pack.language = language) ∧
    ∀ more name pack, (merged first merges).get name = .ok pack →
      ∃ later, ((merged first merges).withPacks more).get name = .ok later := by
  have h := records_merged first merges
  refine ⟨fun name => ?_, fun _ _ => h.exists_pack_of_alias, fun _ => h.get?_eq_none_of_alias,
    (merged first merges).packs.ascending, fun _ => h.mem_languages_iff,
    fun more _ _ => h.exists_get_withPacks more⟩
  rw [get, h.get?_eq]
  cases latest? (takenUp first merges) (languageOf (takenUp first merges) (normalizeName name)) <;>
    rfl

/-- A language with two extensions, and one with one. -/
def scripts : List LanguagePack :=
  [(LanguagePack.plain "javascript" .javascript).withExtensions [".JS", "jsx"],
    (LanguagePack.plain "python" .python).withExtensions ["py"]]

/-- A pack that takes an extension away, and one that replaces the pack that had it and lists
none. -/
def takeovers : List (List LanguagePack) :=
  [[(LanguagePack.plain "plainjs" .javascript).withExtensions ["js"]],
    [LanguagePack.plain "javascript" .typescript]]

/-- The extension stands for the pack that took it, and the one left behind for the pack that is
there now.  No name is lost when packs come back. -/
theorem get_lastWriter_takeovers :
    (merged scripts takeovers).get " .JS".toList =
        .ok ((LanguagePack.plain "plainjs" .javascript).withExtensions ["js"]) ∧
      (merged scripts takeovers).get "jsx".toList = .ok (.plain "javascript" .typescript) ∧
      (merged scripts takeovers).get "Ruby".toList =
        .error (.unsupportedLanguage "Ruby".toList) ∧
      (∃ pack, (merged scripts takeovers).packs.get? "javascript" = some pack) ∧
      (merged scripts takeovers).packs.get? "ruby" = none ∧
      "python" ∈ (merged scripts takeovers).languages ∧
      ∃ later, ((merged scripts takeovers).withPacks scripts).get "jsx".toList = .ok later := by
  obtain ⟨hget, halias, hsecond, -, hlanguages, hmore⟩ := get_lastWriter scripts takeovers
  have hjs : latest? (takenUp scripts takeovers)
      (languageOf (takenUp scripts takeovers) (normalizeName " .JS".toList)) =
        some ((LanguagePack.plain "plainjs" .javascript).withExtensions ["js"]) := by decide +kernel
  have hjsx : latest? (takenUp scripts takeovers)
      (languageOf (takenUp scripts takeovers) (normalizeName "jsx".toList)) =
        some (.plain "javascript" .typescript) := by decide +kernel
  have hruby : latest? (takenUp scripts takeovers)
      (languageOf (takenUp scripts takeovers) (normalizeName "Ruby".toList)) = none := by
    decide +kernel
  have hjsxGet : (merged scripts takeovers).get "jsx".toList =
      .ok (.plain "javascript" .typescript) := by
    rw [hget, hjsx]
    rfl
  refine ⟨?_, hjsxGet, ?_,
    halias "jsx" "javascript" (by decide +kernel), hsecond "ruby" (by decide +kernel), ?_,
    hmore scripts _ _ hjsxGet⟩
  · rw [hget, hjs]
    rfl
  · rw [hget, hruby]
    rfl
  · rw [hlanguages]
    decide +kernel

end Registry

end SyntaxEdit
