/-
What the top-level patterns of a query text are, and where the text is cut into them.

A text is cut in front of every opening bracket outside of all brackets. A pattern that starts with
no bracket, a quoted token or a wildcard, therefore stays with the bracketed pattern before it, and
is in no piece if there is none.

* `PatternText`, `QueryText` — the text of a top-level pattern, and a whole text made of patterns
  with white space and comments around them;
* `Cluster`, `clusters` — a bracketed pattern together with the others behind it;
* `IsBalanced.staysInside` — what stands between two brackets is never cut;
* `forall₂_splitPatterns` — the pieces of a text are its clusters, with white space and comments
  behind them;
* `cuts_of_bracketed` — the clusters are the patterns if every pattern is in brackets.
-/
import Mathlib.Data.List.Forall2
import SyntaxEdit.Proofs.PatternPlaces
import SyntaxEdit.Proofs.QueryGaps
import SyntaxEdit.Proofs.Trimming

namespace SyntaxEdit

namespace Query

variable {context final : QueryContext} {s t rest : Text}

/-! ### The texts of patterns -/

/-- The characters of a string, in front of its closing quote. -/
inductive IsStringBody : Text → Prop
  | nil : IsStringBody []
  | plain {c : Char} {t : Text} (hquote : c ≠ '"') (hescape : c ≠ '\\') (h : IsStringBody t) :
      IsStringBody (c :: t)
  | escaped {c : Char} {t : Text} (h : IsStringBody t) : IsStringBody ('\\' :: c :: t)

/-- An opening bracket and the closing one of its kind. -/
inductive IsPair : Char → Char → Prop
  | round : IsPair '(' ')'
  | square : IsPair '[' ']'

/-- The characters that mean the same wherever they stand outside of strings and comments. -/
def isPlain (c : Char) : Bool :=
  !(opensBracket c || closesBracket c || c = '"' || c = ';')

/-- What can stand between the brackets of a pattern: the brackets, the strings and the comments in
it are closed in it. -/
inductive IsBalanced : Text → Prop
  | nil : IsBalanced []
  | plain {c : Char} {t : Text} (hc : isPlain c = true) (h : IsBalanced t) : IsBalanced (c :: t)
  | comment {line t : Text} (hline : '\n' ∉ line) (h : IsBalanced t) :
      IsBalanced (';' :: line ++ '\n' :: t)
  | string {body t : Text} (hbody : IsStringBody body) (h : IsBalanced t) :
      IsBalanced ('"' :: body ++ '"' :: t)
  | brackets {opening closing : Char} {inner t : Text} (hpair : IsPair opening closing)
      (hinner : IsBalanced inner) (h : IsBalanced t) :
      IsBalanced (opening :: inner ++ closing :: t)

/-- A pattern without its captures, in brackets or not. -/
inductive IsCore : Bool → Text → Prop
  | brackets {opening closing : Char} {inner : Text} (hpair : IsPair opening closing)
      (hinner : IsBalanced inner) : IsCore true (opening :: inner ++ [closing])
  | token {body : Text} (hbody : IsStringBody body) : IsCore false ('"' :: body ++ ['"'])
  | wildcard : IsCore false ['_']

/-- The characters that the name of a capture can be made of. -/
def inCaptureName (c : Char) : Bool :=
  isPlain c && !isBlank c && c ≠ '@'

/-- White space and comments with other text behind them. -/
structure IsInnerGap (s : Text) : Prop where
  isGap : IsGap s
  endsInCode : EndsInCode s

/-- The captures of a pattern. -/
inductive IsCaptures : Text → Prop
  | nil : IsCaptures []
  | capture {gap name t : Text} (hgap : IsInnerGap gap) (hname : name ≠ [])
      (hchars : name.all inCaptureName = true) (h : IsCaptures t) :
      IsCaptures (gap ++ '@' :: name ++ t)

end Query

open Query

/-- The text of a top-level pattern, with what separates it from the text before. -/
structure PatternText where
  gap : Text
  core : Text
  captures : Text
  bracketed : Bool
  isInnerGap : IsInnerGap gap
  isCore : IsCore bracketed core
  isCaptures : IsCaptures captures

/-- The pattern itself. -/
def PatternText.text (p : PatternText) : Text :=
  p.core ++ p.captures

/-- A text that is a sequence of patterns. The last comment may end with the text. -/
structure QueryText where
  patterns : List PatternText
  gap : Text
  isGap : IsGap gap

namespace QueryText

/-- Patterns one behind the other. -/
def flow (patterns : List PatternText) : Text :=
  patterns.flatMap fun p => p.gap ++ p.text

@[simp] theorem flow_nil : flow [] = [] := rfl

@[simp] theorem flow_cons (p : PatternText) (patterns : List PatternText) :
    flow (p :: patterns) = p.gap ++ p.text ++ flow patterns := rfl

@[simp] theorem flow_append (patterns others : List PatternText) :
    flow (patterns ++ others) = flow patterns ++ flow others :=
  List.flatMap_append

/-- The whole text. -/
def text (source : QueryText) : Text :=
  flow source.patterns ++ source.gap

end QueryText

/-- A pattern and others behind it. -/
structure Cluster where
  first : PatternText
  others : List PatternText

/-- The patterns from the first to the last. -/
def Cluster.text (cluster : Cluster) : Text :=
  cluster.first.text ++ QueryText.flow cluster.others

theorem Cluster.text_single (p : PatternText) : Cluster.text ⟨p, []⟩ = p.text :=
  List.append_nil p.text

/-- Each bracketed pattern with the others up to the next one. -/
def clusters : List PatternText → List Cluster
  | [] => []
  | p :: patterns =>
    if p.bracketed then ⟨p, patterns.takeWhile fun q => !q.bracketed⟩ :: clusters patterns
    else clusters patterns

/-- The parts of a text that are tried on their own. -/
def QueryText.cuts (source : QueryText) : List Text :=
  (clusters source.patterns).map Cluster.text

namespace Query

variable {context final : QueryContext} {s t rest : Text}

/-! ### Texts without a place to cut -/

/-- A text that leads from one context to another and has no bracket but in strings and comments. -/
inductive Passes : QueryContext → Text → QueryContext → Prop
  | nil {context : QueryContext} : Passes context [] context
  | cons {context final : QueryContext} {c : Char} {t : Text}
      (hc : context = .code → opensBracket c = false ∧ closesBracket c = false)
      (h : Passes (context.after c) t final) : Passes context (c :: t) final

/-- In strings and comments any character can stand. -/
theorem Passes.hidden {c : Char} (hcontext : context ≠ .code)
    (h : Passes (context.after c) t final) : Passes context (c :: t) final :=
  .cons (fun hcode => absurd hcode hcontext) h

theorem Passes.append {middle : QueryContext} (h : Passes context s middle)
    (h' : Passes middle t final) : Passes context (s ++ t) final := by
  induction h with
  | nil => exact h'
  | cons hc _ ih => exact .cons hc (ih h')

theorem Passes.contextAfter_eq (h : Passes context t final) : contextAfter context t = final := by
  induction h with
  | nil => rfl
  | cons _ _ ih => exact ih

/-- A text without brackets has no place to cut, in however many brackets it stands. -/
theorem Passes.uncut (h : Passes context t final) (depth : Nat) :
    Uncut ⟨context, depth⟩ t ⟨final, depth⟩ := by
  induction h with
  | nil => exact .nil
  | @cons context final c t hc _ ih =>
    have hafter : (⟨context, depth⟩ : Place).after c = ⟨context.after c, depth⟩ := by
      by_cases hcode : context = .code
      · simp [Place.after, hc hcode]
      · simp [Place.after, hcode]
    refine .cons ?_ (hafter ▸ ih)
    rintro ⟨htop, hopens⟩
    rw [(hc (congrArg Place.context htop)).1] at hopens
    cases hopens

/-- A text without a place to cut goes on with the current pattern. -/
theorem Passes.splitPatternsFrom (h : Passes context t final) (depth : Nat)
    (current : Option Text) (rest : Text) :
    splitPatternsFrom context depth current (t ++ rest) =
      splitPatternsFrom final depth (current.map (t.reverse ++ ·)) rest :=
  (h.uncut depth).patterns_append current rest

theorem isPlain_iff {c : Char} :
    isPlain c = true ↔ (opensBracket c = false ∧ closesBracket c = false) ∧ c ≠ '"' ∧ c ≠ ';' := by
  simp [isPlain, and_assoc]

theorem after_code_of_isPlain {c : Char} (hc : isPlain c = true) :
    QueryContext.after .code c = .code := by
  obtain ⟨-, hquote, hcomment⟩ := isPlain_iff.1 hc
  simp only [QueryContext.after, if_neg hcomment, if_neg hquote]

theorem passes_of_isPlain (h : t.all isPlain = true) : Passes .code t .code := by
  induction t with
  | nil => exact .nil
  | cons c t ih =>
    rw [List.all_cons, Bool.and_eq_true] at h
    obtain ⟨hc, ht⟩ := h
    refine .cons (fun _ => (isPlain_iff.1 hc).1) ?_
    rw [after_code_of_isPlain hc]
    exact ih ht

theorem isBalanced_of_isPlain (h : t.all isPlain = true) : IsBalanced t := by
  induction t with
  | nil => exact .nil
  | cons c t ih =>
    rw [List.all_cons, Bool.and_eq_true] at h
    obtain ⟨hc, ht⟩ := h
    exact .plain hc (ih ht)

theorem IsStringBody.passes (h : IsStringBody t) : Passes .string t .string := by
  induction h with
  | nil => exact .nil
  | plain hquote hescape _ ih =>
    refine .hidden (by decide) ?_
    simpa only [QueryContext.after, if_neg hescape, if_neg hquote] using ih
  | escaped _ ih => exact .hidden (by decide) (.hidden (by decide) ih)

/-- A string, with its quotes. -/
theorem IsStringBody.passes_quoted (h : IsStringBody t) : Passes .code ('"' :: t ++ ['"']) .code :=
  .cons (fun _ => ⟨rfl, rfl⟩) (h.passes.append (.hidden (by decide) .nil))

theorem passes_of_newline_not_mem (h : '\n' ∉ t) : Passes .comment t .comment := by
  induction t with
  | nil => exact .nil
  | cons c t ih =>
    obtain ⟨hc, ht⟩ := not_or.1 (mt List.mem_cons.2 h)
    refine .hidden (by decide) ?_
    rw [QueryContext.after, if_neg fun heq => hc heq.symm]
    exact ih ht

/-- A comment, with the end of its line. -/
theorem passes_comment (h : '\n' ∉ t) : Passes .code (';' :: t ++ ['\n']) .code :=
  .cons (fun _ => ⟨rfl, rfl⟩)
    ((passes_of_newline_not_mem h).append (.hidden (by decide) .nil))

theorem exists_passes_of_skipSpaceFrom {inComment : Bool} (h : skipSpaceFrom inComment t = []) :
    ∃ final, Passes (if inComment then .comment else .code) t final := by
  -- What is skipped is read by the scanner too, which stays outside of strings.
  fun_induction skipSpaceFrom inComment t with
  | case1 => exact ⟨_, .nil⟩
  | case2 c t ih =>
    obtain ⟨final, hpasses⟩ := ih h
    refine ⟨final, .hidden (by decide) ?_⟩
    by_cases hbreak : c = '\n'
    · subst hbreak
      exact hpasses
    · simpa [QueryContext.after, hbreak] using hpasses
  | case3 inComment c t hcode hspace ih =>
    obtain ⟨final, hpasses⟩ := ih h
    have hplain : isPlain c = true := by
      simp only [isSpace, Bool.or_eq_true, decide_eq_true_eq] at hspace
      rcases hspace with ((((rfl | rfl) | rfl) | rfl) | rfl) | rfl <;> decide
    rw [if_neg hcode]
    refine ⟨final, .cons (fun _ => (isPlain_iff.1 hplain).1) ?_⟩
    rw [after_code_of_isPlain hplain]
    exact hpasses
  | case4 inComment t hcode _ ih =>
    obtain ⟨final, hpasses⟩ := ih h
    rw [if_neg hcode]
    exact ⟨final, .cons (fun _ => ⟨rfl, rfl⟩) hpasses⟩
  | case5 => cases h

theorem IsGap.exists_passes (h : IsGap s) : ∃ final, Passes .code s final :=
  (exists_passes_of_skipSpaceFrom h :)

/-- White space and comments end the last pattern with the text. -/
theorem IsGap.splitPatternsFrom (h : IsGap s) (depth : Nat) (current : Option Text) :
    splitPatternsFrom .code depth current s = finishPattern (current.map (s.reverse ++ ·)) := by
  obtain ⟨final, hpasses⟩ := h.exists_passes
  have hsplit := hpasses.splitPatternsFrom depth current []
  rwa [List.append_nil, SyntaxEdit.splitPatternsFrom] at hsplit

theorem IsInnerGap.passes (h : IsInnerGap s) : Passes .code s .code := by
  obtain ⟨final, hpasses⟩ := h.isGap.exists_passes
  obtain rfl : final = .code := hpasses.contextAfter_eq.symm.trans h.endsInCode
  exact hpasses

theorem IsCaptures.passes (h : IsCaptures t) : Passes .code t .code := by
  induction h with
  | nil => exact .nil
  | @capture gap name t hgap _ hchars _ ih =>
    have hname : ('@' :: name).all isPlain = true := by
      refine List.all_eq_true.2 (List.forall_mem_cons.2 ⟨by decide, fun c hc => ?_⟩)
      have hchar := List.all_eq_true.1 hchars c hc
      simp only [inCaptureName, Bool.and_eq_true] at hchar
      exact hchar.1.1
    exact (hgap.passes.append (passes_of_isPlain hname)).append ih

/-! ### Brackets -/

theorem IsPair.opens {opening closing : Char} (h : IsPair opening closing) :
    opensBracket opening = true := by
  cases h <;> rfl

theorem IsPair.closes {opening closing : Char} (h : IsPair opening closing) :
    opensBracket closing = false ∧ closesBracket closing = true := by
  cases h <;> exact ⟨rfl, rfl⟩

theorem IsPair.after_code {opening closing : Char} (h : IsPair opening closing) :
    QueryContext.after .code opening = .code ∧ QueryContext.after .code closing = .code := by
  cases h <;> exact ⟨rfl, rfl⟩

theorem IsPair.splitPatternsFrom_closing {opening closing : Char} (h : IsPair opening closing)
    (depth : Nat) (current : Option Text) (rest : Text) :
    splitPatternsFrom .code (depth + 1) current (closing :: rest) =
      splitPatternsFrom .code depth (current.map (closing :: ·)) rest := by
  rw [splitPatternsFrom, if_neg (by simp [h.closes.1]), if_pos ⟨rfl, h.closes.2⟩, h.after_code.2]
  rfl

theorem IsPair.splitPatternsFrom_opening {opening closing : Char} (h : IsPair opening closing)
    (depth : Nat) (current : Option Text) (rest : Text) :
    splitPatternsFrom .code (depth + 1) current (opening :: rest) =
      splitPatternsFrom .code (depth + 2) (current.map (opening :: ·)) rest := by
  rw [splitPatternsFrom, if_pos ⟨rfl, h.opens⟩, if_neg (Nat.succ_ne_zero depth), h.after_code.1]

/-- A text that goes on with the current pattern wherever it stands between brackets. -/
def StaysInside (t : Text) : Prop :=
  ∀ (depth : Nat) (current : Option Text) (rest : Text),
    splitPatternsFrom .code (depth + 1) current (t ++ rest) =
      splitPatternsFrom .code (depth + 1) (current.map (t.reverse ++ ·)) rest

theorem StaysInside.append (hs : StaysInside s) (ht : StaysInside t) : StaysInside (s ++ t) := by
  intro depth current rest
  rw [List.append_assoc, hs, ht, Option.map_map]
  simp [Function.comp_def]

theorem Passes.staysInside (h : Passes .code t .code) : StaysInside t :=
  fun depth => h.splitPatternsFrom (depth + 1)

/-- **What stands between two brackets is never cut.** -/
theorem IsBalanced.staysInside (h : IsBalanced t) : StaysInside t := by
  induction h with
  | nil => exact Passes.nil.staysInside
  | @plain c t hc _ ih =>
    have hchar : Passes .code [c] .code := passes_of_isPlain (by simpa using hc)
    exact hchar.staysInside.append ih
  | comment hline _ ih =>
    rw [List.append_cons]
    exact (passes_comment hline).staysInside.append ih
  | string hbody _ ih =>
    rw [List.append_cons]
    exact hbody.passes_quoted.staysInside.append ih
  | brackets hpair _ _ ihinner ih =>
    -- The brackets lead one level down and back, and the hypotheses hold on any level.
    intro depth current rest
    rw [List.append_assoc, List.cons_append, List.cons_append, hpair.splitPatternsFrom_opening,
      ihinner, hpair.splitPatternsFrom_closing, ih, Option.map_map, Option.map_map, Option.map_map]
    simp [Function.comp_def]

theorem contextAfter_append (context : QueryContext) (s t : Text) :
    contextAfter context (s ++ t) = contextAfter (contextAfter context s) t :=
  List.foldl_append

theorem EndsInCode.append (hs : EndsInCode s) (ht : EndsInCode t) : EndsInCode (s ++ t) := by
  rwa [EndsInCode, contextAfter_append, hs]

theorem Passes.endsInCode (h : Passes .code t .code) : EndsInCode t :=
  h.contextAfter_eq

theorem EndsInCode.cons {c : Char} (h : EndsInCode t) (hc : QueryContext.after .code c = .code) :
    EndsInCode (c :: t) := by
  rwa [EndsInCode, contextAfter, List.foldl_cons, hc]

theorem IsBalanced.endsInCode (h : IsBalanced t) : EndsInCode t := by
  induction h with
  | nil => rfl
  | plain hc _ ih => exact ih.cons (after_code_of_isPlain hc)
  | comment hline _ ih =>
    rw [List.append_cons]
    exact (passes_comment hline).endsInCode.append ih
  | string hbody _ ih =>
    rw [List.append_cons]
    exact hbody.passes_quoted.endsInCode.append ih
  | brackets hpair _ _ ihinner ih =>
    exact (ihinner.append (ih.cons hpair.after_code.2)).cons hpair.after_code.1

theorem IsCore.endsInCode {bracketed : Bool} (h : IsCore bracketed t) : EndsInCode t := by
  cases h with
  | brackets hpair hinner =>
    have hclosed : EndsInCode [] := rfl
    exact (hinner.endsInCode.append (hclosed.cons hpair.after_code.2)).cons hpair.after_code.1
  | token hbody => exact hbody.passes_quoted.endsInCode
  | wildcard => rfl

/-! ### Where a pattern starts and ends -/

/-- A text that does not end with white space. -/
def EndsVisibly (t : Text) : Prop :=
  ∀ c ∈ t.getLast?, isBlank c = false

theorem endsVisibly_nil : EndsVisibly [] := by
  intro c hc
  cases hc

theorem EndsVisibly.append (hs : EndsVisibly s) (ht : EndsVisibly t) : EndsVisibly (s ++ t) := by
  intro c hc
  rw [List.getLast?_append, Option.mem_def, Option.or_eq_some_iff] at hc
  rcases hc with hc | ⟨-, hc⟩
  · exact ht c hc
  · exact hs c hc

theorem endsVisibly_append_of_ne_nil (ht : EndsVisibly t) (hne : t ≠ []) :
    EndsVisibly (s ++ t) := by
  intro c hc
  rw [Option.mem_def, List.getLast?_append_of_ne_nil s hne] at hc
  exact ht c hc

theorem IsCore.endsVisibly {bracketed : Bool} (h : IsCore bracketed t) : EndsVisibly t := by
  intro c hc
  cases h with
  | brackets hpair =>
    rw [Option.mem_def, List.getLast?_concat, Option.some.injEq] at hc
    subst hc
    cases hpair <;> decide
  | token =>
    rw [Option.mem_def, List.getLast?_concat, Option.some.injEq] at hc
    subst hc
    decide
  | wildcard =>
    cases hc
    decide

theorem IsCaptures.endsVisibly (h : IsCaptures t) : EndsVisibly t := by
  induction h with
  | nil => exact endsVisibly_nil
  | @capture gap name t _ hname hchars _ ih =>
    have hlast : EndsVisibly name := by
      intro c hc
      have hchar := List.all_eq_true.1 hchars c (List.mem_of_getLast? hc)
      simp only [inCaptureName, Bool.and_eq_true, Bool.not_eq_true'] at hchar
      exact hchar.1.2
    rw [List.append_cons]
    exact (endsVisibly_append_of_ne_nil hlast hname).append ih

theorem IsCore.head? {bracketed : Bool} (h : IsCore bracketed t) :
    ∃ c, t.head? = some c ∧ isBlank c = false := by
  cases h with
  | brackets hpair => cases hpair <;> exact ⟨_, rfl, by decide⟩
  | token => exact ⟨_, rfl, by decide⟩
  | wildcard => exact ⟨_, rfl, by decide⟩

theorem skipSpaceFrom_eq_nil_of_append {inComment : Bool}
    (h : skipSpaceFrom inComment (s ++ t) = []) : skipSpaceFrom inComment s = [] := by
  fun_induction skipSpaceFrom inComment s with
  | case1 => rfl
  | case2 c s ih => exact ih h
  | case3 _ c s hcode hspace ih =>
    rw [List.cons_append, skipSpaceFrom, if_neg hcode, if_pos hspace] at h
    exact ih h
  | case4 _ s hcode hspace ih =>
    rw [List.cons_append, skipSpaceFrom, if_neg hcode, if_neg hspace, if_pos rfl] at h
    exact ih h
  | case5 _ c s hcode hspace hcomment =>
    rw [List.cons_append, skipSpaceFrom, if_neg hcode, if_neg hspace, if_neg hcomment] at h
    cases h

theorem IsGap.of_append (h : IsGap (s ++ t)) : IsGap s :=
  skipSpaceFrom_eq_nil_of_append h

end Query

open Query

namespace PatternText

theorem endsInCode (p : PatternText) : EndsInCode p.text :=
  p.isCore.endsInCode.append p.isCaptures.passes.endsInCode

theorem endsVisibly (p : PatternText) : EndsVisibly p.text :=
  p.isCore.endsVisibly.append p.isCaptures.endsVisibly

theorem text_ne_nil (p : PatternText) : p.text ≠ [] := by
  obtain ⟨c, hc, -⟩ := p.isCore.head?
  intro hnil
  rw [(List.append_eq_nil_iff.1 hnil).1] at hc
  cases hc

/-- A pattern in brackets starts a new piece. -/
theorem splitPatternsFrom_of_bracketed {p : PatternText} (h : p.bracketed = true)
    (current : Option Text) (rest : Text) :
    splitPatternsFrom .code 0 current (p.gap ++ p.text ++ rest) =
      finishPattern (current.map (p.gap.reverse ++ ·)) ++
        splitPatternsFrom .code 0 (some p.text.reverse) rest := by
  have hcore := p.isCore
  rw [h] at hcore
  rw [List.append_assoc, p.isInnerGap.passes.splitPatternsFrom, text]
  generalize p.core = core at hcore
  cases hcore with
  | @brackets opening closing inner hpair hinner =>
    -- At the top an opening bracket ends the pattern before it and starts a new one.
    have hopen : ∀ rest, splitPatternsFrom .code 0 (current.map (p.gap.reverse ++ ·))
        (opening :: rest) = finishPattern (current.map (p.gap.reverse ++ ·)) ++
          splitPatternsFrom .code 1 (some [opening]) rest := by
      intro rest
      rw [splitPatternsFrom, if_pos ⟨rfl, hpair.opens⟩, if_pos rfl, hpair.after_code.1]
    have htext : opening :: inner ++ [closing] ++ p.captures ++ rest =
        opening :: (inner ++ closing :: (p.captures ++ rest)) := by simp
    rw [htext, hopen, hinner.staysInside, hpair.splitPatternsFrom_closing,
      p.isCaptures.passes.splitPatternsFrom]
    simp

/-- A pattern without brackets goes on with the current piece. -/
theorem splitPatternsFrom_of_not_bracketed {p : PatternText} (h : p.bracketed = false)
    (current : Option Text) (rest : Text) :
    splitPatternsFrom .code 0 current (p.gap ++ p.text ++ rest) =
      splitPatternsFrom .code 0 (current.map ((p.gap ++ p.text).reverse ++ ·)) rest := by
  have hcore := p.isCore
  rw [h] at hcore
  have hpasses : Passes .code p.core .code := by
    generalize p.core = core at hcore
    cases hcore with
    | token hbody => exact hbody.passes_quoted
    | wildcard => exact passes_of_isPlain (by decide)
  exact (p.isInnerGap.passes.append (hpasses.append p.isCaptures.passes)).splitPatternsFrom 0
    current rest

end PatternText

/-! ### The pieces of a text -/

namespace Cluster

theorem endsInCode (cluster : Cluster) : EndsInCode cluster.text := by
  have hflow : ∀ patterns, EndsInCode (QueryText.flow patterns) := by
    intro patterns
    induction patterns with
    | nil => rfl
    | cons p patterns ih => exact (p.isInnerGap.endsInCode.append p.endsInCode).append ih
  exact cluster.first.endsInCode.append (hflow cluster.others)

theorem endsVisibly (cluster : Cluster) : EndsVisibly cluster.text := by
  have hflow : ∀ patterns, EndsVisibly (QueryText.flow patterns) := by
    intro patterns
    induction patterns with
    | nil => exact endsVisibly_nil
    | cons p patterns ih =>
      exact (endsVisibly_append_of_ne_nil p.endsVisibly p.text_ne_nil).append ih
  exact cluster.first.endsVisibly.append (hflow cluster.others)

/-- Trimming takes nothing away but white space behind the patterns. -/
theorem exists_trim_append (cluster : Cluster) {s : Text} (hs : IsGap s) :
    ∃ gap, IsGap gap ∧ Text.trim (cluster.text ++ s) = cluster.text ++ gap := by
  obtain ⟨c, hc, hblank⟩ := cluster.first.isCore.head?
  obtain ⟨tail, htail⟩ := List.head?_eq_some_iff.1 hc
  have hstart : Text.trimStart (cluster.text ++ s) = cluster.text ++ s := by
    refine Text.dropWhile_eq_self fun d hd => ?_
    rw [text, PatternText.text, htail] at hd
    cases hd
    exact hblank
  refine ⟨Text.trimEnd s, ?_, ?_⟩
  · -- The newline that ends a comment may be gone, but a comment may end with the text.
    rw [← Text.trimEndWhile_append_takeEndWhile isBlank s] at hs
    exact hs.of_append
  · rw [Text.trim, hstart, Text.trimEnd, Text.trimEndWhile_append cluster.endsVisibly]
    rfl

end Cluster

/-- A piece of a text is a cluster, with white space and comments behind it. -/
def IsPieceOf (cluster : Cluster) (piece : Text) : Prop :=
  ∃ gap, IsGap gap ∧ piece = cluster.text ++ gap

/-- Where a cluster ends, its piece is complete. -/
theorem exists_finishPattern_eq (cluster : Cluster) {gap : Text} (hgap : IsGap gap) :
    ∃ piece, finishPattern (some (gap.reverse ++ cluster.text.reverse)) = [piece] ∧
      IsPieceOf cluster piece := by
  obtain ⟨gap', hgap', htrim⟩ := cluster.exists_trim_append hgap
  refine ⟨cluster.text ++ gap', ?_, gap', hgap', rfl⟩
  rw [finishPattern, List.reverse_append, List.reverse_reverse, List.reverse_reverse, htrim]

/-- The pieces from some place on, with the part of a cluster that has been met before. -/
theorem forall₂_splitPatternsFrom_some {s : Text} (hs : IsGap s) (patterns : List PatternText)
    (first : PatternText) (others : List PatternText) :
    List.Forall₂ IsPieceOf
      (⟨first, others ++ patterns.takeWhile fun q => !q.bracketed⟩ :: clusters patterns)
      (splitPatternsFrom .code 0 (some (Cluster.text ⟨first, others⟩).reverse)
        (QueryText.flow patterns ++ s)) := by
  -- The induction is on the patterns to come. One in brackets completes the cluster met so far, and
  -- any other is put at its end.
  induction patterns generalizing first others with
  | nil =>
    obtain ⟨piece, hpiece, hcluster⟩ := exists_finishPattern_eq ⟨first, others⟩ hs
    rw [List.takeWhile_nil, List.append_nil, clusters, QueryText.flow_nil, List.nil_append,
      hs.splitPatternsFrom, Option.map_some, hpiece]
    exact .cons hcluster .nil
  | cons p patterns ih =>
    rw [QueryText.flow_cons, List.append_assoc, clusters]
    cases hp : p.bracketed with
    | true =>
      obtain ⟨piece, hpiece, hcluster⟩ :=
        exists_finishPattern_eq ⟨first, others⟩ p.isInnerGap.isGap
      rw [PatternText.splitPatternsFrom_of_bracketed hp, Option.map_some, hpiece, if_pos rfl,
        List.takeWhile_cons_of_neg (by simp [hp]), List.append_nil]
      have hothers := ih p []
      rw [Cluster.text_single] at hothers
      exact .cons hcluster hothers
    | false =>
      have htext : (p.gap ++ p.text).reverse ++ (Cluster.text ⟨first, others⟩).reverse =
          (Cluster.text ⟨first, others ++ [p]⟩).reverse := by
        simp [Cluster.text]
      rw [PatternText.splitPatternsFrom_of_not_bracketed hp, Option.map_some, htext,
        if_neg Bool.false_ne_true, List.takeWhile_cons_of_pos (by simp [hp]), List.append_cons]
      exact ih first (others ++ [p])

/-- **The pieces of a text are its clusters.** The patterns in front of the first bracketed one are
in no piece. -/
theorem forall₂_splitPatterns (source : QueryText) :
    List.Forall₂ IsPieceOf (clusters source.patterns) (splitPatterns source.text) := by
  obtain ⟨patterns, s, hs⟩ := source
  show List.Forall₂ IsPieceOf (clusters patterns)
    (splitPatternsFrom .code 0 none (QueryText.flow patterns ++ s))
  induction patterns with
  | nil =>
    rw [QueryText.flow_nil, List.nil_append, hs.splitPatternsFrom]
    exact .nil
  | cons p patterns ih =>
    rw [QueryText.flow_cons, List.append_assoc, clusters]
    cases hp : p.bracketed with
    | true =>
      -- A pattern in brackets opens a piece, which takes up all that follow up to the next one.
      have hothers := forall₂_splitPatternsFrom_some hs patterns p []
      rw [Cluster.text_single] at hothers
      rw [PatternText.splitPatternsFrom_of_bracketed hp, if_pos rfl]
      exact hothers
    | false =>
      -- Before any bracket there is no piece, so this pattern is lost.
      rw [PatternText.splitPatternsFrom_of_not_bracketed hp, if_neg Bool.false_ne_true]
      exact ih

theorem clusters_of_bracketed {patterns : List PatternText}
    (h : ∀ p ∈ patterns, p.bracketed = true) :
    clusters patterns = patterns.map fun p => ⟨p, []⟩ := by
  induction patterns with
  | nil => rfl
  | cons p patterns ih =>
    obtain ⟨hp, hpatterns⟩ := List.forall_mem_cons.1 h
    have hnone : patterns.takeWhile (fun q => !q.bracketed) = [] := by
      cases patterns with
      | nil => rfl
      | cons q patterns => exact List.takeWhile_cons_of_neg (by simp [hpatterns q])
    rw [clusters, if_pos hp, hnone, ih hpatterns, List.map_cons]

/-- The parts that are tried on their own are the patterns if every pattern is in brackets. -/
theorem QueryText.cuts_of_bracketed {source : QueryText}
    (h : ∀ p ∈ source.patterns, p.bracketed = true) :
    source.cuts = source.patterns.map PatternText.text := by
  rw [cuts, clusters_of_bracketed h, List.map_map]
  exact List.map_congr_left fun p _ => Cluster.text_single p

end SyntaxEdit
