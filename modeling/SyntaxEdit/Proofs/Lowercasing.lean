/-
Lowercasing a text again changes nothing.

The runs of the case mapping never lead to a character that one of them starts from.  Where targets
and sources overlap, the sources step by two and the targets have the other parity.

* `CaseRun.avoids` — no target of a run is a source of another, told by their ends and parity;
* `isLower_lowerChar` — so the lowercase of a character is its own lowercase;
* `lowercase_lowercase` — and that of a text is, although the mapping looks at what is around.
-/
import Mathlib.Tactic.Common
import SyntaxEdit.Text.Lowercase

namespace SyntaxEdit

/-! ### Runs of the case mapping -/

namespace CaseRun

variable {run other : CaseRun} {n : Nat}

/-- Whether a code point is a source of a run. -/
def HasSource (run : CaseRun) (n : Nat) : Prop :=
  run.first ≤ n ∧ n ≤ run.last ∧ (n - run.first) % run.step = 0

/-- Where a run leads from one of its sources. -/
def target (run : CaseRun) (n : Nat) : Nat :=
  (n + run.shift).toNat

/-- Whether all sources of a run are even, or all are odd. -/
def hasOneParity (run : CaseRun) : Bool :=
  run.step == 2 || run.first == run.last

/-- Whether no source of a run is among the code points from `first` to `last`, or none of the
parity of `first` if only these count. -/
def noneAmong (first last : Nat) (oneParity : Bool) (run : CaseRun) : Bool :=
  last.blt run.first || run.last.blt first ||
    run.step == 2 && oneParity && first % 2 != run.first % 2

/-- Whether no target of a run is a source of another. -/
def avoids (run : CaseRun) : CaseRun → Bool :=
  noneAmong (run.target run.first) (run.target run.last) run.hasOneParity

/-- Whether all targets of a run are characters. -/
def HasCharTargets (run : CaseRun) : Prop :=
  0 ≤ run.first + run.shift ∧
    (run.target run.last < 0xD800 ∨ 0xDFFF < run.target run.first ∧ run.target run.last < 0x110000)

instance (run : CaseRun) : Decidable run.HasCharTargets :=
  inferInstanceAs (Decidable (_ ∧ _))

theorem isValidChar_target (h : run.HasCharTargets) (hn : run.HasSource n) :
    (run.target n).isValidChar := by
  obtain ⟨hfirst, hlast, -⟩ := hn
  simp only [HasCharTargets, target] at h
  rw [Nat.isValidChar, target]
  omega

/-- A run leads to no source of a run that it avoids. -/
theorem not_hasSource_target (hchar : run.HasCharTargets) (h : run.avoids other = true)
    (hn : run.HasSource n) : ¬other.HasSource (run.target n) := by
  obtain ⟨hfirst, hlast, hstep⟩ := hn
  rintro ⟨hafter, hbefore, hother⟩
  have hnonneg : 0 ≤ run.first + run.shift := hchar.1
  simp only [avoids, noneAmong, hasOneParity, target, Bool.or_eq_true, Bool.and_eq_true, Nat.blt_eq,
    beq_iff_eq, bne_iff_ne] at h hafter hbefore hother
  -- The other run ends before this target range, starts behind it, or differs in parity.
  rcases h with (h | h) | ⟨⟨hother2, h2 | hone⟩, hparity⟩
  · omega
  · omega
  · rw [h2] at hstep
    rw [hother2] at hother
    omega
  · rw [hother2] at hother
    obtain rfl : n = run.first := by omega
    omega

end CaseRun

/-- The dotted capital I, which the mapping leads to two characters, as a run of its own. -/
def dottedRun : CaseRun := ⟨0x130, 0x130, 1, 0⟩

theorem lowercaseRuns_avoid :
    (lowercaseRuns.all fun run => (dottedRun :: lowercaseRuns).all run.avoids) = true := by
  decide +kernel

theorem lowercaseRuns_hasCharTargets : ∀ run ∈ lowercaseRuns, run.HasCharTargets := by
  decide +kernel

/-! ### Characters -/

/-- Whether neither a run nor the rule on the dotted capital I changes a character. -/
def IsLower (c : Char) : Prop :=
  ∀ run ∈ dottedRun :: lowercaseRuns, ¬run.HasSource c.toNat

/-- The run that a character is looked up in. -/
theorem hasSource_iff {run : CaseRun} {n : Nat} :
    (run.first ≤ n && n ≤ run.last && (n - run.first) % run.step == 0) = true ↔
      run.HasSource n := by
  simp [CaseRun.HasSource, and_assoc]

theorem IsLower.lowerChar_eq {c : Char} (h : IsLower c) : lowerChar c = c := by
  have hnone : lowercaseRuns.find? (fun run => run.first ≤ c.toNat && c.toNat ≤ run.last &&
      (c.toNat - run.first) % run.step == 0) = none := by
    rw [List.find?_eq_none]
    intro run hrun hsource
    exact h run (List.mem_cons_of_mem _ hrun) (hasSource_iff.1 hsource)
  rw [lowerChar, hnone]

theorem IsLower.ne_dottedI {c : Char} (h : IsLower c) : c ≠ 'İ' := by
  rintro rfl
  exact h dottedRun List.mem_cons_self ⟨by decide, by decide, by decide⟩

theorem IsLower.ne_sigma {c : Char} (h : IsLower c) : c ≠ 'Σ' := by
  rintro rfl
  exact absurd h.lowerChar_eq (by decide)

theorem isLower_lowerChar {c : Char} (h : c ≠ 'İ') : IsLower (lowerChar c) := by
  rw [lowerChar]
  split
  · rename_i run hfound
    have hrun := List.mem_of_find?_eq_some hfound
    have hfirst := List.find?_some hfound
    have hsource : run.HasSource c.toNat := hasSource_iff.1 hfirst
    have hchar := lowercaseRuns_hasCharTargets run hrun
    -- The target is a valid character, so taking its code point loses nothing.
    have htoNat : (Char.ofNat (run.target c.toNat)).toNat = run.target c.toNat := by
      rw [Char.ofNat, dif_pos (CaseRun.isValidChar_target hchar hsource)]
      rfl
    intro other hother
    show ¬other.HasSource (Char.ofNat (run.target c.toNat)).toNat
    rw [htoNat]
    have havoids :=
      List.all_eq_true.1 (List.all_eq_true.1 lowercaseRuns_avoid run hrun) other hother
    exact CaseRun.not_hasSource_target hchar havoids hsource
  · rename_i hnone
    -- No run applies to `c`, and the one character with a rule of its own is excluded.
    intro other hother hsource
    rcases List.mem_cons.1 hother with rfl | hother
    · obtain ⟨hfirst, hlast, -⟩ := hsource
      exact h (Char.toNat_inj.1 (Nat.le_antisymm hlast hfirst))
    · exact List.find?_eq_none.1 hnone other hother (hasSource_iff.2 hsource)

theorem isLower_iff {c : Char} : IsLower c ↔ lowerChar c = c ∧ c ≠ 'İ' :=
  ⟨fun h => ⟨h.lowerChar_eq, h.ne_dottedI⟩, fun ⟨hsame, hne⟩ => hsame ▸ isLower_lowerChar hne⟩

/-! ### Texts -/

namespace Text

theorem lowercaseAfter_eq_self {t : Text} (h : ∀ c ∈ t, IsLower c) (before : Text) :
    lowercaseAfter before t = t := by
  induction t generalizing before with
  | nil => rfl
  | cons c rest ih =>
    have hc := h c List.mem_cons_self
    rw [lowercaseAfter, ih fun d hd => h d (List.mem_cons_of_mem c hd)]
    simp [hc.ne_sigma, hc.ne_dottedI, hc.lowerChar_eq]

theorem isLower_of_mem_lowercaseAfter {before t : Text} {c : Char}
    (h : c ∈ lowercaseAfter before t) : IsLower c := by
  induction t generalizing before with
  | nil => cases h
  | cons d rest ih =>
    rw [lowercaseAfter, List.mem_append] at h
    rcases h with h | h
    · -- The two rules that go beyond single characters lead to lowercase characters as well.
      by_cases hsigma : d = 'Σ'
      · have hc : c = 'ς' ∨ c = 'σ' := by
          rw [if_pos hsigma] at h
          split at h
          · exact Or.inl (List.mem_singleton.1 h)
          · exact Or.inr (List.mem_singleton.1 h)
        rcases hc with rfl | rfl <;> exact isLower_iff.2 (by decide)
      by_cases hdotted : d = 'İ'
      · have hc : c = 'i' ∨ c = Char.ofNat 0x307 := by simpa [hsigma, hdotted] using h
        rcases hc with rfl | rfl <;> exact isLower_iff.2 (by decide)
      · rw [if_neg hsigma, if_neg hdotted, List.mem_singleton] at h
        exact h ▸ isLower_lowerChar hdotted
    · exact ih h

/-- **A lowercase text is its own lowercase.** -/
@[simp] theorem lowercase_lowercase (t : Text) : lowercase (lowercase t) = lowercase t :=
  lowercaseAfter_eq_self (fun _ => isLower_of_mem_lowercaseAfter) []

end Text

end SyntaxEdit
