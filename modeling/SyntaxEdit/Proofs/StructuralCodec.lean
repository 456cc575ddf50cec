/-
Reading and writing structural paths.

A written path has no escapes, although node types may hold the characters that delimit segments.
What is written reads back exactly if the path is *readable*: it has a segment, every type is a
non-empty text without `]/`, every index is within bounds, and the first type does not start with
white space.

* `splitSegments_joinWith` — texts without `]/` are what is cut out of their join;
* `readSegment?_eq_some_iff` — a segment is read off at its last opening bracket;
* `render_eq_joinWith` — a written path is such a join, with one closing bracket after it;
* `parse?_render`, `isReadable_of_parse?` — readable paths read back, and only those are read;
* `parse_render_iff_isReadable` — both in one.
-/
import SyntaxEdit.Path.Structural
import SyntaxEdit.Proofs.Trimming

namespace SyntaxEdit

/-- The text between the segments of a written path. -/
def segmentSeparator : Text := [']', '/']

/-- A segment that can be told from its neighbours when it is written. -/
structure PathSegment.IsReadable (s : PathSegment) : Prop where
  type_ne_empty : s.nodeType ≠ ""
  type_free : ¬ segmentSeparator <:+: s.nodeType.toList
  index_le : s.index ≤ maxIndex

/-- A path that can be told from all others when it is written. -/
structure StructuralPath.IsReadable (p : StructuralPath) : Prop where
  ne_nil : p.segments ≠ []
  segment : ∀ s ∈ p.segments, s.IsReadable
  first : ∀ s ∈ p.segments.head?, ∀ c ∈ s.nodeType.toList.head?, isBlank c = false

namespace Decimal

theorem digit_ne : ∀ d < 10, digit d ≠ '[' ∧ digit d ≠ ']' ∧ digit d ≠ '+' := by
  decide

/-- What is written of a number is digits. -/
theorem exists_digit_of_mem_render {n : Nat} {c : Char} (h : c ∈ render n) :
    ∃ d < 10, c = digit d := by
  induction n using Nat.strongRecOn with
  | ind n ih =>
    rw [render] at h
    split at h
    · rename_i hsmall
      exact ⟨n, hsmall, by simpa using h⟩
    · rename_i hlarge
      rcases List.mem_append.1 h with hhigh | hlast
      · exact ih (n / 10) (by omega) hhigh
      · exact ⟨n % 10, Nat.mod_lt _ (by omega), by simpa using hlast⟩

theorem not_mem_render (n : Nat) : '[' ∉ render n ∧ ']' ∉ render n ∧ '+' ∉ render n := by
  refine ⟨fun h => ?_, fun h => ?_, fun h => ?_⟩ <;>
    obtain ⟨d, hd, hc⟩ := exists_digit_of_mem_render h
  · exact (digit_ne d hd).1 hc.symm
  · exact (digit_ne d hd).2.1 hc.symm
  · exact (digit_ne d hd).2.2 hc.symm

/-- An index within bounds reads back. -/
theorem readIndex?_render {n : Nat} (h : n ≤ maxIndex) : readIndex? (render n) = some n := by
  rw [readIndex?, read?_render]
  · simp [h]
  · intro digits hplus
    exact (not_mem_render n).2.2 (hplus ▸ List.mem_cons_self)

theorem le_of_readIndex? {t : Text} {n : Nat} (h : readIndex? t = some n) : n ≤ maxIndex := by
  simp only [readIndex?, bind, Option.bind_eq_some_iff] at h
  obtain ⟨m, -, hm⟩ := h
  split at hm
  · rename_i hle
    obtain rfl : m = n := by simpa using hm
    exact hle
  · cases hm

end Decimal

namespace StructuralPath

/-! ### Cutting at separators -/

/-- Induction along the cuts: a text is empty, starts with a separator, or starts with a character
that starts none. -/
theorem separator_induction {motive : Text → Prop} (nil : motive [])
    (separator : ∀ rest, motive rest → motive (segmentSeparator ++ rest))
    (char : ∀ c rest, ¬ segmentSeparator <+: c :: rest → motive rest → motive (c :: rest))
    (t : Text) : motive t := by
  have hchar : ∀ c rest, (∀ tail, c = ']' → rest = '/' :: tail → False) → motive rest →
      motive (c :: rest) := by
    intro c rest hne ih
    refine char c rest ?_ ih
    rintro ⟨tail, htail⟩
    simp only [segmentSeparator, List.cons_append, List.nil_append, List.cons.injEq] at htail
    exact hne tail htail.1.symm htail.2.symm
  induction t using splitSegments.induct with
  | case1 => exact nil
  | case2 rest ih => exact separator rest ih
  | case3 c rest hne _ ih => exact hchar c rest hne ih
  | case4 c rest hne _ _ _ ih => exact hchar c rest hne ih

theorem splitSegments_ne_nil (t : Text) : splitSegments t ≠ [] := by
  fun_induction splitSegments t <;> simp

/-- A character that starts no separator goes to the first piece. -/
theorem splitSegments_cons {c : Char} {rest : Text} (h : ¬ segmentSeparator <+: c :: rest) :
    ∃ piece pieces, splitSegments rest = piece :: pieces ∧
      splitSegments (c :: rest) = (c :: piece) :: pieces := by
  obtain ⟨piece, pieces, hrest⟩ := List.exists_cons_of_ne_nil (splitSegments_ne_nil rest)
  refine ⟨piece, pieces, hrest, ?_⟩
  rw [splitSegments, hrest]
  intro tail hc htail
  exact h ⟨tail, by rw [hc, htail]; rfl⟩

/-- Joining the pieces of a text gives the text back. -/
theorem joinWith_splitSegments (t : Text) :
    Text.joinWith segmentSeparator (splitSegments t) = t := by
  induction t using separator_induction with
  | nil => rfl
  | separator rest ih =>
    obtain ⟨piece, pieces, hrest⟩ := List.exists_cons_of_ne_nil (splitSegments_ne_nil rest)
    show Text.joinWith segmentSeparator ([] :: splitSegments rest) = _
    rw [hrest, Text.joinWith, ← hrest, ih]
    rfl
  | char c rest hsep ih =>
    obtain ⟨piece, pieces, hrest, hcons⟩ := splitSegments_cons hsep
    rw [hrest] at ih
    rw [hcons]
    cases pieces with
    | nil => exact congrArg (c :: ·) ih
    | cons next pieces => exact congrArg (c :: ·) ih

/-- The first piece is what a text starts with. -/
theorem isPrefix_of_splitSegments {t piece : Text} {pieces : List Text}
    (h : splitSegments t = piece :: pieces) : piece <+: t := by
  rw [← joinWith_splitSegments t, h]
  cases pieces with
  | nil => exact List.prefix_rfl
  | cons next pieces => exact ⟨_, (List.append_assoc _ _ _).symm⟩

/-- No piece has a separator in it. -/
theorem free_of_mem_splitSegments {t piece : Text} (h : piece ∈ splitSegments t) :
    ¬ segmentSeparator <:+: piece := by
  induction t using separator_induction generalizing piece with
  | nil =>
    obtain rfl : piece = [] := by simpa [splitSegments] using h
    simp [segmentSeparator]
  | separator rest ih =>
    rcases List.mem_cons.1 h with rfl | h
    · simp [segmentSeparator]
    · exact ih h
  | char c rest hsep ih =>
    obtain ⟨first, pieces, hrest, hcons⟩ := splitSegments_cons hsep
    rw [hrest] at ih
    rw [hcons] at h
    rcases List.mem_cons.1 h with rfl | h
    · rw [List.infix_cons_iff]
      rintro (hstart | hinside)
      · -- The separator would start the whole text, as the first piece does.
        refine hsep (hstart.trans ?_)
        obtain ⟨tail, htail⟩ := isPrefix_of_splitSegments hrest
        exact ⟨tail, congrArg (c :: ·) htail⟩
      · exact ih List.mem_cons_self hinside
    · exact ih (List.mem_cons_of_mem _ h)

theorem splitSegments_of_free {t : Text} (h : ¬ segmentSeparator <:+: t) :
    splitSegments t = [t] := by
  induction t with
  | nil => rfl
  | cons c rest ih =>
    rw [List.infix_cons_iff, not_or] at h
    obtain ⟨piece, pieces, hrest, hcons⟩ := splitSegments_cons h.1
    obtain ⟨rfl, rfl⟩ : rest = piece ∧ [] = pieces := by
      rw [ih h.2] at hrest
      exact List.cons.inj hrest
    exact hcons

/-- A text without a separator is cut off at the separator behind it. Its last character may be a
closing bracket. -/
theorem splitSegments_append_separator {piece : Text} (rest : Text)
    (h : ¬ segmentSeparator <:+: piece) :
    splitSegments (piece ++ segmentSeparator ++ rest) = piece :: splitSegments rest := by
  induction piece with
  | nil => rfl
  | cons c piece ih =>
    rw [List.infix_cons_iff, not_or] at h
    -- A separator that starts in `piece` would have to lie in it, as it does not overlap itself.
    have hsep : ¬ segmentSeparator <+: c :: (piece ++ segmentSeparator ++ rest) := by
      rintro ⟨tail, htail⟩
      cases piece with
      | nil => simp [segmentSeparator] at htail
      | cons d piece =>
        simp only [segmentSeparator, List.cons_append, List.cons.injEq] at htail
        exact h.1 ⟨piece, by rw [segmentSeparator, htail.1, htail.2.1]; rfl⟩
    obtain ⟨first, pieces, hrest, hcons⟩ := splitSegments_cons hsep
    obtain ⟨rfl, rfl⟩ : piece = first ∧ splitSegments rest = pieces := by
      rw [ih h.2] at hrest
      exact List.cons.inj hrest
    exact hcons

/-- Texts without separators are what is cut out of their join. -/
theorem splitSegments_joinWith {pieces : List Text} (hne : pieces ≠ [])
    (hfree : ∀ piece ∈ pieces, ¬ segmentSeparator <:+: piece) :
    splitSegments (Text.joinWith segmentSeparator pieces) = pieces := by
  induction pieces with
  | nil => exact absurd rfl hne
  | cons piece pieces ih =>
    have hpiece := hfree piece List.mem_cons_self
    cases pieces with
    | nil => exact splitSegments_of_free hpiece
    | cons next pieces =>
      rw [Text.joinWith, splitSegments_append_separator _ hpiece,
        ih (by simp) fun other hother => hfree other (List.mem_cons_of_mem _ hother)]

/-! ### Single segments -/

/-- A segment is read off at its last opening bracket. -/
theorem readSegment?_eq_some_iff {piece : Text} {s : PathSegment} :
    readSegment? piece = some s ↔
      ∃ digits, piece = s.nodeType.toList ++ '[' :: digits ∧ '[' ∉ digits ∧ s.nodeType ≠ "" ∧
        Decimal.readIndex? digits = some s.index := by
  -- The index stands behind the last bracket, so a type may hold brackets itself.
  have hpiece : Text.trimEndWhile (· ≠ '[') piece ++ Text.takeEndWhile (· ≠ '[') piece = piece :=
    Text.trimEndWhile_append_takeEndWhile _ _
  constructor
  · intro h
    rw [readSegment?] at h
    split at h
    · cases h
    · rename_i c typeReversed hopen
      simp only [bind, Option.bind_eq_some_iff] at h
      obtain ⟨index, hindex, h⟩ := h
      split at h
      · cases h
      · rename_i htype
        obtain rfl : ⟨String.ofList typeReversed.reverse, index⟩ = s := by simpa using h
        have hc : c = '[' := by
          have hneg := Text.not_of_mem_head?_dropWhile (t := piece.reverse) (p := (· ≠ '['))
            (c := c) (by rw [hopen]; rfl)
          simpa using hneg
        refine ⟨_, ?_, fun hmem => ?_, ?_, hindex⟩
        · rw [Text.trimEndWhile, hopen, hc] at hpiece
          simpa using hpiece.symm
        · simpa using Text.mem_takeEndWhile hmem
        · intro hempty
          exact htype (by simpa using congrArg String.toList hempty)
  · rintro ⟨digits, rfl, hdigits, htype, hindex⟩
    have hneg : ∀ d ∈ digits, decide (d ≠ '[') = true := by
      intro d hd
      exact decide_eq_true fun heq => hdigits (heq ▸ hd)
    have hlast : ∀ c ∈ (s.nodeType.toList ++ ['[']).getLast?, decide (c ≠ '[') = false := by
      simp
    have hopen := Text.trimEndWhile_append_of_getLast hlast hneg
    have hback := Text.takeEndWhile_append_of_getLast hlast hneg
    rw [Text.trimEndWhile, List.reverse_eq_iff] at hopen
    rw [readSegment?, List.append_cons, hopen, hback, hindex]
    have hne : s.nodeType.toList ≠ [] := by simpa using htype
    simp [hne]

/-- A segment as written, without its closing bracket. -/
def openSegment (s : PathSegment) : Text :=
  s.nodeType.toList ++ '[' :: Decimal.render s.index

theorem render_segment (s : PathSegment) : s.render = openSegment s ++ [']'] := by
  simp [PathSegment.render, openSegment]

theorem readSegment?_openSegment {s : PathSegment} (h : s.IsReadable) :
    readSegment? (openSegment s) = some s :=
  readSegment?_eq_some_iff.2 ⟨Decimal.render s.index, rfl, (Decimal.not_mem_render _).1,
    h.type_ne_empty, Decimal.readIndex?_render h.index_le⟩

/-- Neither the bracket nor the digits bring a separator in. -/
theorem openSegment_free {s : PathSegment} (h : ¬ segmentSeparator <:+: s.nodeType.toList) :
    ¬ segmentSeparator <:+: openSegment s := by
  rw [openSegment, List.infix_append_iff_ne_nil]
  rintro (htype | hindex | ⟨front, back, hfront, hback, hsep, -, hstart⟩)
  · exact h htype
  · have hmem : ']' ∈ '[' :: Decimal.render s.index := hindex.subset (by simp [segmentSeparator])
    simp [(Decimal.not_mem_render s.index).2.1] at hmem
  · -- A separator across the opening bracket would have it for its slash.
    obtain ⟨tail, htail⟩ := hstart
    rcases front with _ | ⟨c, _ | ⟨d, front⟩⟩
    · exact hfront rfl
    · simp only [segmentSeparator, List.singleton_append, List.cons.injEq] at hsep
      rw [← hsep.2] at htail
      simp at htail
    · simp [segmentSeparator, hback] at hsep

/-! ### Whole paths -/

/-- A written path is the join of its open segments with one closing bracket after it. -/
theorem render_eq_joinWith {p : StructuralPath} (h : p.segments ≠ []) :
    p.render = Text.joinWith segmentSeparator (p.segments.map openSegment) ++ [']'] := by
  obtain ⟨segments⟩ := p
  show Text.joinWith ['/'] (segments.map PathSegment.render) = _
  induction segments with
  | nil => exact absurd rfl h
  | cons s rest ih =>
    cases rest with
    | nil => exact render_segment s
    | cons next rest =>
      have hrest := ih (by simp)
      simp only [List.map_cons, Text.joinWith] at hrest ⊢
      rw [hrest, render_segment]
      simp [segmentSeparator]

/-- Pieces are read off one by one. -/
theorem mapM_readSegment?_eq_some_iff {pieces : List Text} {segments : List PathSegment} :
    pieces.mapM readSegment? = some segments ↔ pieces.map readSegment? = segments.map some := by
  -- Pieces and segments are compared one by one.
  induction pieces generalizing segments with
  | nil =>
    rw [List.mapM_nil]
    cases segments <;> simp
  | cons piece pieces ih =>
    rw [List.mapM_cons]
    cases hpiece : readSegment? piece with
    | none => cases segments <;> simp [hpiece]
    | some s =>
      cases segments with
      | nil => simp [Option.bind_eq_some_iff]
      | cons s' segments =>
        simp only [bind, pure, Option.bind_some, Option.bind_eq_some_iff, Option.some.injEq,
          List.cons.injEq, List.map_cons, hpiece]
        constructor
        · rintro ⟨rest, hrest, rfl, rfl⟩
          exact ⟨rfl, ih.1 hrest⟩
        · rintro ⟨rfl, hrest⟩
          exact ⟨segments, ih.2 hrest, rfl, rfl⟩

theorem mapM_readSegment?_openSegment {segments : List PathSegment}
    (h : ∀ s ∈ segments, s.IsReadable) :
    (segments.map openSegment).mapM readSegment? = some segments := by
  rw [mapM_readSegment?_eq_some_iff, List.map_map]
  exact List.map_congr_left fun s hs => readSegment?_openSegment (h s hs)

/-- The first character of a written path is that of its first type. -/
theorem head?_render {p : StructuralPath} {s : PathSegment} {c : Char} {tail : Text}
    (hs : s ∈ p.segments.head?) (hc : s.nodeType.toList = c :: tail) :
    p.render.head? = some c := by
  obtain ⟨segments⟩ := p
  cases segments with
  | nil => cases hs
  | cons first rest =>
    obtain rfl : first = s := by simpa using hs
    cases rest <;> simp [StructuralPath.render, Text.joinWith, PathSegment.render, hc]

/-- A readable path reads back. -/
theorem parse?_render {p : StructuralPath} (h : p.IsReadable) : parse? p.render = some p := by
  have hrender := render_eq_joinWith h.ne_nil
  have htrim : Text.trim p.render = p.render := by
    rw [Text.trim_eq_self_iff]
    constructor
    · intro c hc
      obtain ⟨s, rest, hsegments⟩ := List.exists_cons_of_ne_nil h.ne_nil
      have hs : s ∈ p.segments.head? := by rw [hsegments]; rfl
      have hne : s.nodeType.toList ≠ [] := by
        simpa using (h.segment s (List.mem_of_mem_head? hs)).type_ne_empty
      obtain ⟨d, tail, hd⟩ := List.exists_cons_of_ne_nil hne
      have hcd : d = c := by simpa [head?_render hs hd] using hc
      exact h.first s hs c (by simp [hd, hcd])
    · intro c hc
      rw [hrender, List.getLast?_concat] at hc
      obtain rfl : ']' = c := by simpa using hc
      decide
  rw [parse?, htrim, hrender, List.getLast?_concat, List.dropLast_concat,
    splitSegments_joinWith (by simpa using h.ne_nil), mapM_readSegment?_openSegment h.segment]
  · rfl
  · intro piece hpiece
    obtain ⟨s, hs, rfl⟩ := List.mem_map.1 hpiece
    exact openSegment_free (h.segment s hs).type_free

theorem exists_of_parse? {t : Text} {p : StructuralPath} (h : parse? t = some p) :
    ∃ body, Text.trim t = body ++ [']'] ∧
      (splitSegments body).mapM readSegment? = some p.segments := by
  simp only [parse?] at h
  split at h
  · cases h
  · rename_i hlast
    obtain ⟨body, hbody⟩ := List.getLast?_eq_some_iff.1 (Decidable.not_not.1 hlast)
    simp only [bind, pure, Option.bind_eq_some_iff, Option.some.injEq] at h
    obtain ⟨segments, hsegments, rfl⟩ := h
    exact ⟨body, hbody, by rw [← hsegments, hbody, List.dropLast_concat]⟩

theorem isReadable_of_readSegment? {piece : Text} {s : PathSegment}
    (h : readSegment? piece = some s) (hfree : ¬ segmentSeparator <:+: piece) :
    s.IsReadable := by
  obtain ⟨digits, rfl, -, htype, hindex⟩ := readSegment?_eq_some_iff.1 h
  exact ⟨htype, fun hinside => hfree (List.infix_append_of_infix_left hinside),
    Decimal.le_of_readIndex? hindex⟩

/-- The first type that is read stands at the start of the trimmed text. -/
theorem head?_trim_of_parse? {t : Text} {p : StructuralPath} (h : parse? t = some p)
    {s : PathSegment} (hs : s ∈ p.segments.head?) : s.nodeType.toList <+: Text.trim t := by
  obtain ⟨body, hbody, hsegments⟩ := exists_of_parse? h
  rw [mapM_readSegment?_eq_some_iff] at hsegments
  obtain ⟨piece, pieces, hpieces⟩ := List.exists_cons_of_ne_nil (splitSegments_ne_nil body)
  have hread : readSegment? piece = some s := by
    have hhead := congrArg List.head? hsegments
    rw [hpieces, List.map_cons, List.head?_cons, List.head?_map, Option.mem_def.1 hs] at hhead
    simpa using hhead
  obtain ⟨digits, hpiece, -⟩ := readSegment?_eq_some_iff.1 hread
  have htype : s.nodeType.toList <+: piece := ⟨_, hpiece.symm⟩
  have hfirst : piece <+: body := isPrefix_of_splitSegments hpieces
  exact (htype.trans hfirst).trans ⟨_, hbody.symm⟩

/-- Only readable paths are read. -/
theorem isReadable_of_parse? {t : Text} {p : StructuralPath} (h : parse? t = some p) :
    p.IsReadable := by
  obtain ⟨body, hbody, hsegments⟩ := exists_of_parse? h
  rw [mapM_readSegment?_eq_some_iff] at hsegments
  refine ⟨?_, ?_, ?_⟩
  · intro hnil
    rw [hnil, List.map_nil, List.map_eq_nil_iff] at hsegments
    exact splitSegments_ne_nil body hsegments
  · intro s hs
    have hmem : some s ∈ (splitSegments body).map readSegment? := by
      rw [hsegments]
      exact List.mem_map_of_mem hs
    obtain ⟨piece, hpiece, hread⟩ := List.mem_map.1 hmem
    exact isReadable_of_readSegment? hread (free_of_mem_splitSegments hpiece)
  · intro s hs c hc
    obtain ⟨tail, htail⟩ := head?_trim_of_parse? h hs
    refine Text.not_isBlank_of_mem_head?_trim (t := t) ?_
    rw [← htail, List.head?_append, Option.mem_def.1 hc]
    rfl

theorem parse_eq_ok_iff {t : Text} {p : StructuralPath} : parse t = .ok p ↔ parse? t = some p := by
  rw [parse]
  cases parse? t <;> simp

/-- **What is written reads back exactly if the path is readable**, and whatever is read is
readable, so writing it again and reading that changes nothing. -/
theorem parse_render_iff_isReadable :
    (∀ p : StructuralPath, parse p.render = .ok p ↔ p.IsReadable) ∧
      ∀ (t : Text) (p : StructuralPath), parse t = .ok p →
        p.IsReadable ∧ parse p.render = .ok p := by
  simp only [parse_eq_ok_iff]
  refine ⟨fun p => ⟨isReadable_of_parse?, parse?_render⟩, fun t p h => ?_⟩
  have hreadable := isReadable_of_parse? h
  exact ⟨hreadable, parse?_render hreadable⟩

/-- A text with blanks, a sign and leading zeros, and a type that is a closing bracket. -/
theorem parse_render_sparse_text :
    parse " list[0]/][+02]\n".toList = .ok ⟨[⟨"list", 0⟩, ⟨"]", 2⟩]⟩ ∧
      StructuralPath.IsReadable ⟨[⟨"list", 0⟩, ⟨"]", 2⟩]⟩ ∧
      parse (StructuralPath.render ⟨[⟨"list", 0⟩, ⟨"]", 2⟩]⟩) = .ok ⟨[⟨"list", 0⟩, ⟨"]", 2⟩]⟩ := by
  have hread : parse " list[0]/][+02]\n".toList = .ok ⟨[⟨"list", 0⟩, ⟨"]", 2⟩]⟩ :=
    parse_eq_ok_iff.2 (by decide)
  exact ⟨hread, parse_render_iff_isReadable.2 _ _ hread⟩

end StructuralPath

end SyntaxEdit
