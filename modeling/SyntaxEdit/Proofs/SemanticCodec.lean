/-
Reading and writing semantic paths.

* `splitBlock?_eq_some_iff` — the texts of block form, and how they are taken apart;
* `unquote?_between_iff`, `readLabel_between_iff` — which texts survive a pair of quotes around
  them;
* `parseDotted?_eq_some_iff` — dotted texts are read part by part;
* `parse?_call_iff` — a call with one argument is read as a block with a label;
* `parse?_render_iff` — what is written reads back exactly if the path is *readable*: names are
  trimmed, not empty and without dots, nothing dotted has the block form, a callee is one, and a
  label stands on one line and brings no second pair of double quotes along.
-/
import SyntaxEdit.Path.Semantic
import SyntaxEdit.Proofs.Splitting
import SyntaxEdit.Proofs.Trimming

namespace SyntaxEdit

/-! ### Ranges of characters -/

namespace CharRanges

theorem contains_of_mem {ranges : CharRanges} {first last : Nat} {c : Char}
    (h : (first, last) ∈ ranges) (hlow : first ≤ c.toNat) (hhigh : c.toNat ≤ last) :
    ranges.contains c = true := by
  rw [contains, List.any_eq_true]
  exact ⟨_, h, by simp [hlow, hhigh]⟩

theorem not_contains_of_disjoint {ranges others : CharRanges} {c : Char}
    (hdisjoint : ∀ r ∈ ranges, ∀ s ∈ others, r.2 < s.1 ∨ s.2 < r.1)
    (h : ranges.contains c = true) : others.contains c = false := by
  rw [contains, List.any_eq_true] at h
  obtain ⟨r, hr, hin⟩ := h
  rw [contains, List.any_eq_false]
  intro s hs hout
  simp only [Bool.and_eq_true, decide_eq_true_eq] at hin hout
  rcases hdisjoint r hr s hs with hlt | hlt <;> omega

end CharRanges

/-! ### Quotes -/

/-- What is stripped of a delimiter stood between two copies of it. -/
theorem stripDelimiter?_eq_some_iff {delimiter t inner : Text} :
    stripDelimiter? delimiter t = some inner ↔ t = delimiter ++ inner ++ delimiter := by
  rw [stripDelimiter?]
  constructor
  · intro h
    split at h
    · rename_i hcond
      obtain ⟨hlength, hstart, hstop⟩ := hcond
      obtain ⟨back, rfl⟩ := List.isPrefixOf_iff_prefix.1 hstart
      -- The text has room for both delimiters, so the one at its end is behind the first.
      have hback : delimiter <:+ back := by
        refine List.suffix_of_suffix_length_le (List.isSuffixOf_iff_suffix.1 hstop)
          (List.suffix_append _ _) ?_
        simp only [List.length_append] at hlength
        omega
      obtain ⟨middle, rfl⟩ := hback
      have hcount : (delimiter ++ (middle ++ delimiter)).length - 2 * delimiter.length =
          middle.length := by
        simp only [List.length_append]
        omega
      rw [hcount, List.drop_left, List.take_left, Option.some.injEq] at h
      rw [h, List.append_assoc]
    · cases h
  · rintro rfl
    have hcount : (delimiter ++ inner ++ delimiter).length - 2 * delimiter.length =
        inner.length := by
      simp only [List.length_append]
      omega
    rw [if_pos ⟨by simp only [List.length_append]; omega,
      List.isPrefixOf_iff_prefix.2 ⟨inner ++ delimiter, (List.append_assoc _ _ _).symm⟩,
      List.isSuffixOf_iff_suffix.2 (List.suffix_append _ _)⟩, hcount, List.append_assoc,
      List.drop_left, List.take_left]

theorem stripDelimiter?_of_head_ne {c q : Char} (h : c ≠ q) (delimiter rest : Text) :
    stripDelimiter? (c :: delimiter) (q :: rest) = none := by
  rw [Option.eq_none_iff_forall_ne_some]
  intro inner hinner
  rw [stripDelimiter?_eq_some_iff] at hinner
  exact h (List.cons.inj hinner).1.symm

theorem stripDelimiter?_single (q : Char) (t : Text) :
    stripDelimiter? [q] (q :: (t ++ [q])) = some t :=
  stripDelimiter?_eq_some_iff.2 rfl

theorem stripDelimiter?_triple_iff {q : Char} {t inner : Text} :
    stripDelimiter? [q, q, q] (q :: (t ++ [q])) = some inner ↔ t = [q, q] ++ inner ++ [q, q] := by
  rw [stripDelimiter?_eq_some_iff]
  constructor
  · intro h
    have htail : t ++ [q] = ([q, q] ++ inner ++ [q, q]) ++ [q] := by
      simpa using (List.cons.inj h).2
    exact List.append_cancel_right htail
  · rintro rfl
    simp

theorem stripDelimiter?_triple_or_iff {q : Char} {t : Text} :
    (stripDelimiter? [q, q, q] (q :: (t ++ [q]))).or (some t) = some t ↔
      ¬ ∃ inner, t = [q, q] ++ inner ++ [q, q] := by
  cases hstrip : stripDelimiter? [q, q, q] (q :: (t ++ [q])) with
  | none =>
    simp only [Option.none_or, true_iff]
    rintro ⟨inner, hinner⟩
    rw [stripDelimiter?_triple_iff.2 hinner] at hstrip
    cases hstrip
  | some inner =>
    have ht := stripDelimiter?_triple_iff.1 hstrip
    simp only [Option.some_or, Option.some.injEq]
    constructor
    · -- What is left between three quotes is shorter than the text, so it is another text.
      rintro rfl
      have hlength := congrArg List.length ht
      simp only [List.length_append, List.length_cons, List.length_nil] at hlength
      omega
    · intro hne
      exact absurd ⟨inner, ht⟩ hne

/-- A text between quotes is stripped of just these quotes, unless they are double or single ones
and two more of them stand at either end of the text. -/
theorem unquote?_between_iff {q : Char} (hq : q ∈ ['"', '\'', '`']) {t : Text} :
    unquote? (q :: (t ++ [q])) = some t ↔
      q = '`' ∨ ¬ ∃ inner, t = [q, q] ++ inner ++ [q, q] := by
  have htry : ∀ (delimiter : Text) (others : List Text) (u : Text),
      (delimiter :: others).findSome? (fun d => stripDelimiter? d u) =
        (stripDelimiter? delimiter u).or (others.findSome? fun d => stripDelimiter? d u) := by
    intro delimiter others u
    rw [List.findSome?_cons]
    cases stripDelimiter? delimiter u <;> rfl
  have hdouble : ∀ c ≠ '"', ∀ delimiter rest,
      stripDelimiter? ('"' :: delimiter) (c :: rest) = none :=
    fun c hc => stripDelimiter?_of_head_ne hc.symm
  have hsingle : ∀ c ≠ '\'', ∀ delimiter rest,
      stripDelimiter? ('\'' :: delimiter) (c :: rest) = none :=
    fun c hc => stripDelimiter?_of_head_ne hc.symm
  simp only [unquote?, quoteDelimiters, htry, List.findSome?_nil, Option.or_none]
  simp only [List.mem_cons, List.not_mem_nil, or_false] at hq
  -- Delimiters are tried in order, and only those of the quote itself can match.
  rcases hq with rfl | rfl | rfl
  · rw [hsingle _ (by decide), stripDelimiter?_single, Option.none_or, Option.some_or,
      stripDelimiter?_triple_or_iff]
    simp
  · rw [hdouble _ (by decide), hdouble _ (by decide), stripDelimiter?_single, Option.none_or,
      Option.none_or, Option.some_or, stripDelimiter?_triple_or_iff]
    simp
  · rw [hdouble _ (by decide), hdouble _ (by decide), hsingle _ (by decide),
      hsingle _ (by decide), stripDelimiter?_single]
    simp

namespace SemanticPath

/-! ### Labels -/

/-- Quotes are visible, and one byte long. -/
theorem isBlank_and_utf8Size_of_quote {q : Char} (hq : q ∈ ['"', '\'', '`']) :
    isBlank q = false ∧ q.utf8Size = 1 := by
  simp only [List.mem_cons, List.not_mem_nil, or_false] at hq
  rcases hq with rfl | rfl | rfl <;> decide

/-- What stands between quotes is read as the label, unless two more of the quotes stand at either
end of it. -/
theorem readLabel_between_iff {q : Char} (hq : q ∈ ['"', '\'', '`']) {label : Text} :
    readLabel (q :: (label ++ [q])) = some label ↔
      q = '`' ∨ ¬ ∃ inner, label = [q, q] ++ inner ++ [q, q] := by
  have hvisible : isBlank q = false := (isBlank_and_utf8Size_of_quote hq).1
  have htrim : Text.trim (q :: (label ++ [q])) = q :: (label ++ [q]) := by
    rw [Text.trim_eq_self_iff]
    refine ⟨fun c hc => ?_, fun c hc => ?_⟩
    · obtain rfl : q = c := by simpa using hc
      exact hvisible
    · rw [← List.cons_append, List.getLast?_concat] at hc
      obtain rfl : q = c := by simpa using hc
      exact hvisible
  have hunquote := unquote?_between_iff hq (t := label)
  rw [readLabel, htrim, if_neg (List.cons_ne_nil _ _), Option.some.injEq, ← hunquote]
  cases unquote? (q :: (label ++ [q])) with
  | none =>
    -- The quotes would be part of the label.
    have hne : q :: (label ++ [q]) ≠ label := by
      intro heq
      have hlength := congrArg List.length heq
      simp only [List.length_cons, List.length_append] at hlength
      omega
    simp [hne]
  | some inner => simp

/-! ### The block form -/

/-- A text that can name the function a block calls. -/
def IsCallee (t : Text) : Prop :=
  ∃ first rest, t = first :: rest ∧ startsCallee first = true ∧ ∀ c ∈ rest, inCallee c = true

/-- A text that is a callee, white space, and an argument on one line between brackets. -/
def HasBlockForm (t : Text) : Prop :=
  ∃ callee blanks argument, IsCallee callee ∧ (∀ c ∈ blanks, isBlank c = true) ∧
    '\n' ∉ argument ∧ t = callee ++ blanks ++ '(' :: (argument ++ [')'])

/-- The letters that can start a callee make up two ranges. -/
theorem range_of_isAlpha {c : Char} (h : c.isAlpha = true) :
    (0x41 ≤ c.toNat ∧ c.toNat ≤ 0x5A) ∨ (0x61 ≤ c.toNat ∧ c.toNat ≤ 0x7A) := by
  rcases Bool.or_eq_true_iff.1 (show (c.isUpper || c.isLower) = true from h) with hupper | hlower
  · have hrange : 'A'.val ≤ c.val ∧ c.val ≤ 'Z'.val := of_decide_eq_true hupper
    exact .inl ⟨UInt32.le_iff_toNat_le.1 hrange.1, UInt32.le_iff_toNat_le.1 hrange.2⟩
  · have hrange : (decide ('a'.val ≤ c.val) && decide (c.val ≤ 'z'.val)) = true := hlower
    rw [Bool.and_eq_true, decide_eq_true_eq, decide_eq_true_eq] at hrange
    exact .inr ⟨UInt32.le_iff_toNat_le.1 hrange.1, UInt32.le_iff_toNat_le.1 hrange.2⟩

theorem inCallee_of_startsCallee {c : Char} (h : startsCallee c = true) : inCallee c = true := by
  have hmem : (0x41, 0x5A) ∈ wordRanges ∧ (0x61, 0x7A) ∈ wordRanges := by decide +kernel
  simp only [startsCallee, Bool.or_eq_true, decide_eq_true_eq] at h
  rw [inCallee, Bool.or_eq_true, Bool.or_eq_true]
  rcases h with (halpha | rfl) | rfl
  · rcases range_of_isAlpha halpha with ⟨hlow, hhigh⟩ | ⟨hlow, hhigh⟩
    · exact .inl (.inl (CharRanges.contains_of_mem hmem.1 hlow hhigh))
    · exact .inl (.inl (CharRanges.contains_of_mem hmem.2 hlow hhigh))
  · decide +kernel
  · decide +kernel

/-- No white space stands in a callee, so a callee is cut off where white space starts. -/
theorem not_inCallee_of_isBlank {c : Char} (h : isBlank c = true) : inCallee c = false := by
  have hdisjoint : ∀ r ∈ blankRanges, ∀ s ∈ wordRanges, r.2 < s.1 ∨ s.2 < r.1 := by
    decide +kernel
  have hword : isWord c = false := CharRanges.not_contains_of_disjoint hdisjoint h
  have hother : c ≠ '$' ∧ c ≠ '.' := by
    constructor <;> rintro rfl <;> exact absurd h (by decide)
  simp [inCallee, hword, hother.1, hother.2]

theorem not_isBlank_of_startsCallee {c : Char} (h : startsCallee c = true) :
    isBlank c = false := by
  rw [← Bool.not_eq_true]
  intro hblank
  have hcallee := inCallee_of_startsCallee h
  rw [not_inCallee_of_isBlank hblank] at hcallee
  cases hcallee

/-- A text of block form is taken apart at the end of the longest callee it starts with. -/
theorem splitBlock?_eq_some_iff {t callee argument : Text} :
    splitBlock? t = some (callee, argument) ↔
      IsCallee callee ∧ '\n' ∉ argument ∧ ∃ blanks, (∀ c ∈ blanks, isBlank c = true) ∧
        t = callee ++ blanks ++ '(' :: (argument ++ [')']) := by
  constructor
  · intro h
    cases t with
    | nil => cases h
    | cons first rest =>
      rw [splitBlock?] at h
      split at h
      · rename_i hfirst
        split at h
        · rename_i inner hopen
          split at h
          · rename_i hinner
            obtain ⟨hlast, hline⟩ := hinner
            obtain ⟨argument', rfl⟩ := List.getLast?_eq_some_iff.1 hlast
            rw [List.dropLast_concat] at h hline
            obtain ⟨rfl, rfl⟩ := by simpa using h
            refine ⟨⟨first, _, rfl, hfirst, fun c hc => List.all_eq_true.1 List.all_takeWhile c hc⟩,
              hline, (rest.dropWhile inCallee).takeWhile isBlank,
              fun c hc => List.all_eq_true.1 List.all_takeWhile c hc, ?_⟩
            rw [← hopen, List.append_assoc, List.takeWhile_append_dropWhile, List.cons_append,
              List.takeWhile_append_dropWhile]
          · cases h
        · cases h
      · cases h
  · rintro ⟨⟨first, rest, rfl, hfirst, hrest⟩, hline, blanks, hblanks, rfl⟩
    -- The callee ends at the first blank or bracket, so it is taken whole.
    have hbreak : ∀ c ∈ (blanks ++ '(' :: (argument ++ [')'])).head?, inCallee c = false := by
      intro c hc
      cases blanks with
      | nil =>
        obtain rfl : '(' = c := by simpa using hc
        decide +kernel
      | cons b blanks =>
        obtain rfl : b = c := by simpa using hc
        exact not_inCallee_of_isBlank (hblanks b List.mem_cons_self)
    rw [List.append_assoc, List.cons_append, splitBlock?, if_pos hfirst,
      Text.dropWhile_append_of_head hrest hbreak, Text.takeWhile_append_of_head hrest hbreak,
      Text.dropWhile_append_of_head hblanks (by simp; decide)]
    simp [hline]

theorem splitBlock?_eq_none_iff {t : Text} : splitBlock? t = none ↔ ¬ HasBlockForm t := by
  rw [Option.eq_none_iff_forall_ne_some]
  constructor
  · rintro h ⟨callee, blanks, argument, hcallee, hblanks, hline, ht⟩
    exact h (callee, argument) (splitBlock?_eq_some_iff.2 ⟨hcallee, hline, blanks, hblanks, ht⟩)
  · rintro h ⟨callee, argument⟩ hsplit
    obtain ⟨hcallee, hline, blanks, hblanks, ht⟩ := splitBlock?_eq_some_iff.1 hsplit
    exact h ⟨callee, blanks, argument, hcallee, hblanks, hline, ht⟩

/-! ### The dotted form -/

/-- A text that can stand between the dots of a written path. -/
def IsPart (t : Text) : Prop :=
  t ≠ [] ∧ '.' ∉ t ∧ Text.trim t = t

/-- The trimmed parts of a text between its dots. -/
def partsOf (t : Text) : List Text :=
  (Text.splitOn '.' t).map Text.trim

theorem isPart_of_mem_partsOf {t part : Text} (h : part ∈ partsOf t) (hne : part ≠ []) :
    IsPart part := by
  obtain ⟨piece, hpiece, rfl⟩ := List.mem_map.1 h
  refine ⟨hne, fun hdot => Text.not_mem_of_mem_splitOn hpiece ?_, Text.trim_trim piece⟩
  exact Text.trim_subset piece hdot

/-- Parts that are joined by dots are read one by one. -/
theorem partsOf_joinWith {parts : List Text} (hne : parts ≠ []) (h : ∀ part ∈ parts, IsPart part) :
    partsOf (Text.joinWith ['.'] parts) = parts := by
  rw [partsOf, Text.splitOn_joinWith hne fun part hpart => (h part hpart).2.1]
  exact (List.map_congr_left fun part hpart => (h part hpart).2.2).trans (List.map_id parts)

/-- The path with some names, the last of which is that of the construct itself. -/
def ofParts : List Text → Text → SemanticPath
  | [], own => .name own
  | container :: others, own => .member (container :: others) own

theorem ofParts_inj {containers containers' : List Text} {own own' : Text} :
    ofParts containers own = ofParts containers' own' ↔ containers = containers' ∧ own = own' := by
  cases containers <;> cases containers' <;> simp [ofParts]

theorem render_ofParts (containers : List Text) (own : Text) :
    (ofParts containers own).render = Text.joinWith ['.'] (containers ++ [own]) := by
  cases containers with
  | nil => rfl
  | cons container others =>
    show Text.joinWith ['.'] (container :: others) ++ '.' :: own = _
    induction others generalizing container with
    | nil => simp [Text.joinWith]
    | cons next others ih =>
      rw [Text.joinWith, List.append_assoc, ih next]
      rfl

/-- A dotted text is read as the path with its parts, if none of them is empty. -/
theorem parseDotted?_eq_some_iff {t : Text} {p : SemanticPath} :
    parseDotted? t = some p ↔
      ∃ containers own, p = ofParts containers own ∧ partsOf t = containers ++ [own] ∧
        [] ∉ partsOf t := by
  have hne : partsOf t ≠ [] := by simp [partsOf, Text.splitOn_ne_nil]
  obtain ⟨containers, own, hparts⟩ := (List.eq_nil_or_concat (partsOf t)).resolve_left hne
  rw [List.concat_eq_append] at hparts
  -- There is always a last part, so the text is refused only for an empty one.
  have hread : parseDotted? t =
      if [] ∈ partsOf t then none else some (ofParts containers own) := by
    have hpieces : (Text.splitOn '.' t).map Text.trim = containers ++ [own] := hparts
    simp only [parseDotted?, hpieces, hparts, List.getLast?_concat, List.dropLast_concat]
    cases containers <;> rfl
  rw [hread]
  split
  · rename_i hempty
    simp [hempty]
  · rename_i hfull
    rw [Option.some.injEq]
    constructor
    · rintro rfl
      exact ⟨containers, own, rfl, hparts, hfull⟩
    · rintro ⟨containers', own', rfl, hparts', -⟩
      rw [hparts] at hparts'
      obtain ⟨rfl, hown⟩ := List.append_inj' hparts' rfl
      rw [(List.cons.inj hown).1]

/-! ### Whole paths -/

/-- What a trimmed text denotes: a block if it has the block form, and a dotted path otherwise. -/
theorem parse?_eq (t : Text) :
    parse? t = match splitBlock? (Text.trim t) with
      | some (callee, argument) => some (.block callee (readLabel argument))
      | none => parseDotted? (Text.trim t) := by
  rw [parse?]
  split
  · rename_i hblank
    rw [hblank]
    rfl
  · rfl

/-- A path that can be told from all others when it is written. -/
def IsReadable : SemanticPath → Prop
  | .block callee label =>
    IsCallee callee ∧
      ∀ l, label = some l → '\n' ∉ l ∧ ¬ ∃ inner, l = ['"', '"'] ++ inner ++ ['"', '"']
  | .name own => IsPart own ∧ ¬ HasBlockForm own
  | .member containers own =>
    containers ≠ [] ∧ (∀ container ∈ containers, IsPart container) ∧ IsPart own ∧
      ¬ HasBlockForm (Text.joinWith ['.'] containers ++ '.' :: own)

/-- For dotted paths all parts are treated alike. -/
theorem isReadable_ofParts_iff {containers : List Text} {own : Text} :
    (ofParts containers own).IsReadable ↔
      (∀ part ∈ containers ++ [own], IsPart part) ∧
        ¬ HasBlockForm (ofParts containers own).render := by
  cases containers with
  | nil => simp [ofParts, IsReadable, render]
  | cons container others =>
    simp only [ofParts, IsReadable, render, List.mem_append, List.mem_singleton]
    constructor
    · rintro ⟨-, hcontainers, hown, hform⟩
      exact ⟨fun part hpart => hpart.elim (hcontainers part) fun heq => heq ▸ hown, hform⟩
    · rintro ⟨hparts, hform⟩
      exact ⟨List.cons_ne_nil _ _, fun part hpart => hparts part (.inl hpart),
        hparts own (.inr rfl), hform⟩

theorem parse?_ofParts_iff {t own : Text} {containers : List Text} :
    parse? t = some (ofParts containers own) ↔
      ¬ HasBlockForm (Text.trim t) ∧
        parseDotted? (Text.trim t) = some (ofParts containers own) := by
  rw [parse?_eq, ← splitBlock?_eq_none_iff]
  cases splitBlock? (Text.trim t) with
  | none => simp
  | some parts => cases containers <;> simp [ofParts]

theorem IsPart.not_isBlank {part : Text} (h : IsPart part) {c : Char}
    (hc : c ∈ part.head? ∨ c ∈ part.getLast?) : isBlank c = false := by
  obtain ⟨hhead, hlast⟩ := Text.trim_eq_self_iff.1 h.2.2
  exact hc.elim (hhead c) (hlast c)

/-- White space stands at neither end of trimmed parts that are joined. -/
theorem trim_render_ofParts {containers : List Text} {own : Text}
    (h : ∀ part ∈ containers ++ [own], IsPart part) :
    Text.trim (ofParts containers own).render = (ofParts containers own).render := by
  have hown : IsPart own := h own (by simp)
  rw [Text.trim_eq_self_iff]
  constructor
  · intro c hc
    -- The text starts as its first part does, and ends as its last.
    obtain ⟨first, rest, hfirst⟩ := List.exists_cons_of_ne_nil (l := containers ++ [own]) (by simp)
    have hpart : IsPart first := h first (hfirst ▸ List.mem_cons_self)
    obtain ⟨d, tail, rfl⟩ := List.exists_cons_of_ne_nil hpart.1
    have hd : d = c := by
      rw [render_ofParts, hfirst] at hc
      cases rest <;> simpa [Text.joinWith] using hc
    exact hpart.not_isBlank (.inl (by simp [hd]))
  · intro c hc
    refine hown.not_isBlank (.inr ?_)
    obtain ⟨front, d, rfl⟩ := (List.eq_nil_or_concat own).resolve_left hown.1
    cases containers with
    | nil => exact hc
    | cons container others =>
      have hend : (ofParts (container :: others) (front.concat d)).render =
          (Text.joinWith ['.'] (container :: others) ++ '.' :: front) ++ [d] := by
        simp [ofParts, render]
      rw [hend, List.getLast?_concat] at hc
      rwa [List.concat_eq_append, List.getLast?_concat]

theorem parse?_render_ofParts_iff {containers : List Text} {own : Text} :
    parse? (ofParts containers own).render = some (ofParts containers own) ↔
      (ofParts containers own).IsReadable := by
  rw [parse?_ofParts_iff, isReadable_ofParts_iff, parseDotted?_eq_some_iff]
  constructor
  · rintro ⟨hform, containers', own', heq, hparts, hfull⟩
    have hsame : containers' ++ [own'] = containers ++ [own] := by
      rw [(ofParts_inj.1 heq).1, (ofParts_inj.1 heq).2]
    -- What was read has parts without outer blanks, and these are the parts that were written.
    have hall : ∀ part ∈ containers ++ [own], IsPart part := by
      intro part hpart
      rw [← hsame, ← hparts] at hpart
      exact isPart_of_mem_partsOf hpart fun hempty => hfull (hempty ▸ hpart)
    exact ⟨hall, by rwa [trim_render_ofParts hall] at hform⟩
  · rintro ⟨hall, hform⟩
    have hparts : partsOf (ofParts containers own).render = containers ++ [own] := by
      rw [render_ofParts, partsOf_joinWith (by simp) hall]
    rw [trim_render_ofParts hall]
    refine ⟨hform, containers, own, rfl, hparts, fun hempty => ?_⟩
    rw [hparts] at hempty
    exact (hall [] hempty).1 rfl

/-! ### Blocks -/

/-- White space stands at neither end of a call, whatever stands before its brackets. -/
theorem trim_call {callee : Text} (h : IsCallee callee) (blanks argument : Text) :
    Text.trim (callee ++ blanks ++ '(' :: (argument ++ [')'])) =
      callee ++ blanks ++ '(' :: (argument ++ [')']) := by
  obtain ⟨first, rest, rfl, hfirst, -⟩ := h
  rw [Text.trim_eq_self_iff]
  constructor
  · intro c hc
    obtain rfl : first = c := by simpa using hc
    exact not_isBlank_of_startsCallee hfirst
  · intro c hc
    rw [← List.cons_append, ← List.append_assoc, List.getLast?_concat] at hc
    obtain rfl : ')' = c := by simpa using hc
    decide

/-- A call is taken apart into its callee and its argument, unless the argument takes more than one
line. -/
theorem splitBlock?_call_iff {callee argument argument' : Text} (h : IsCallee callee) :
    splitBlock? (callee ++ '(' :: (argument ++ [')'])) = some (callee, argument') ↔
      argument' = argument ∧ '\n' ∉ argument' := by
  rw [splitBlock?_eq_some_iff]
  constructor
  · rintro ⟨-, hline, blanks, hblanks, hcall⟩
    rw [List.append_assoc] at hcall
    have hrest := List.append_cancel_left hcall
    cases blanks with
    | nil => exact ⟨(List.append_cancel_right (List.cons.inj hrest).2).symm, hline⟩
    | cons b blanks =>
      obtain rfl : '(' = b := (List.cons.inj hrest).1
      exact absurd (hblanks '(' List.mem_cons_self) (by decide)
  · rintro ⟨rfl, hline⟩
    exact ⟨h, hline, [], by simp, by simp⟩

theorem parse?_block_iff {t callee : Text} {label : Option Text} :
    parse? t = some (.block callee label) ↔
      ∃ argument, splitBlock? (Text.trim t) = some (callee, argument) ∧
        readLabel argument = label := by
  rw [parse?_eq]
  cases splitBlock? (Text.trim t) with
  | none =>
    simp only [parseDotted?_eq_some_iff, reduceCtorEq, false_and, exists_false, iff_false]
    rintro ⟨_ | ⟨container, others⟩, own, heq, -⟩ <;> cases heq
  | some parts =>
    obtain ⟨callee', argument⟩ := parts
    simp only [Option.some.injEq, SemanticPath.block.injEq, Prod.mk.injEq]
    constructor
    · rintro ⟨hcallee, hlabel⟩
      exact ⟨argument, ⟨hcallee, rfl⟩, hlabel⟩
    · rintro ⟨_, ⟨hcallee, rfl⟩, hlabel⟩
      exact ⟨hcallee, hlabel⟩

/-- A call on one line is read as the block with the label of its argument. -/
theorem parse?_call_iff {callee argument : Text} {label : Option Text} (h : IsCallee callee) :
    parse? (callee ++ '(' :: (argument ++ [')'])) = some (.block callee label) ↔
      '\n' ∉ argument ∧ readLabel argument = label := by
  have htrim := trim_call h [] argument
  rw [List.append_nil] at htrim
  simp only [parse?_block_iff, htrim, splitBlock?_call_iff h]
  constructor
  · rintro ⟨_, ⟨rfl, hline⟩, hlabel⟩
    exact ⟨hline, hlabel⟩
  · rintro ⟨hline, hlabel⟩
    exact ⟨argument, ⟨rfl, hline⟩, hlabel⟩

/-- What stands between the brackets of a written block. -/
def blockArgument : Option Text → Text
  | some label => '"' :: (label ++ ['"'])
  | none => []

theorem render_block (callee : Text) (label : Option Text) :
    (SemanticPath.block callee label).render = callee ++ '(' :: (blockArgument label ++ [')']) := by
  cases label <;> simp [render, blockArgument]

theorem parse?_render_block_iff {callee : Text} {label : Option Text} :
    parse? (SemanticPath.block callee label).render = some (.block callee label) ↔
      (SemanticPath.block callee label).IsReadable := by
  have hcallee : parse? (SemanticPath.block callee label).render = some (.block callee label) →
      IsCallee callee := by
    intro h
    obtain ⟨argument, hsplit, -⟩ := parse?_block_iff.1 h
    exact (splitBlock?_eq_some_iff.1 hsplit).1
  rw [← and_iff_right_of_imp hcallee]
  refine and_congr_right fun h => ?_
  rw [render_block, parse?_call_iff h]
  cases label with
  | none => exact iff_of_true ⟨by simp [blockArgument], rfl⟩ (by simp)
  | some l =>
    rw [blockArgument, readLabel_between_iff (by simp)]
    simp

/-- What is written reads back exactly if the path is readable. -/
theorem parse?_render_iff {p : SemanticPath} : parse? p.render = some p ↔ p.IsReadable := by
  match p with
  | .block callee label => exact parse?_render_block_iff
  | .name own =>
    show parse? (ofParts [] own).render = some (ofParts [] own) ↔ (ofParts [] own).IsReadable
    exact parse?_render_ofParts_iff
  | .member (container :: others) own =>
    show parse? (ofParts (container :: others) own).render =
      some (ofParts (container :: others) own) ↔ (ofParts (container :: others) own).IsReadable
    exact parse?_render_ofParts_iff
  | .member [] own =>
    -- A member of nothing is never read: with no container, what is read is a name.
    simp only [IsReadable, ne_eq, not_true_eq_false, false_and, iff_false]
    rw [parse?_eq]
    intro h
    split at h
    · cases h
    · obtain ⟨_ | ⟨container, others⟩, own', heq, -⟩ := parseDotted?_eq_some_iff.1 h <;> cases heq

end SemanticPath

end SyntaxEdit
