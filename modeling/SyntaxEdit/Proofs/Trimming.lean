/-
Trimming by a class of characters, at one end and at both.

* `trimEndWhile_append_of_getLast`, `takeEndWhile_append_of_getLast` — where an end part stops: at
  the last character outside of the class;
* `trim_eq_self_iff` — a text is trimmed exactly when no white space stands at either end;
* `trim_trim` — trimming once is enough.
-/
import SyntaxEdit.Text.Blank

namespace SyntaxEdit

namespace Text

/-! ### One end -/

theorem dropWhile_eq_self {α : Type} {p : α → Bool} {t : List α} (h : ∀ c ∈ t.head?, p c = false) :
    t.dropWhile p = t := by
  cases t with
  | nil => rfl
  | cons c rest =>
    have hc : p c = false := h c rfl
    rw [List.dropWhile_cons_of_neg (by simp [hc])]

/-- A run of characters of the class is dropped up to a character outside of it. -/
theorem dropWhile_append_of_head {p : Char → Bool} {front back : Text}
    (hfront : ∀ c ∈ front, p c = true) (hback : ∀ c ∈ back.head?, p c = false) :
    (front ++ back).dropWhile p = back := by
  rw [List.dropWhile_append_of_pos hfront, dropWhile_eq_self hback]

theorem takeWhile_append_of_head {p : Char → Bool} {front back : Text}
    (hfront : ∀ c ∈ front, p c = true) (hback : ∀ c ∈ back.head?, p c = false) :
    (front ++ back).takeWhile p = front := by
  have htail : back.takeWhile p = [] := by
    cases back with
    | nil => rfl
    | cons c back => exact List.takeWhile_cons_of_neg (by simp [hback c rfl])
  rw [List.takeWhile_append_of_pos hfront, htail, List.append_nil]

theorem not_of_mem_head?_dropWhile {α : Type} {p : α → Bool} {t : List α} {c : α}
    (h : c ∈ (t.dropWhile p).head?) : p c = false := by
  have hneg := List.head?_dropWhile_not p t
  rw [Option.mem_def.1 h] at hneg
  exact hneg

/-- A run of characters of the class is trimmed off up to a character outside of it. -/
theorem trimEndWhile_append_of_getLast {p : Char → Bool} {front back : Text}
    (hfront : ∀ c ∈ front.getLast?, p c = false) (hback : ∀ c ∈ back, p c = true) :
    trimEndWhile p (front ++ back) = front := by
  rw [trimEndWhile, List.reverse_append,
    dropWhile_append_of_head (by simpa using hback) (by simpa using hfront), List.reverse_reverse]

theorem takeEndWhile_append_of_getLast {p : Char → Bool} {front back : Text}
    (hfront : ∀ c ∈ front.getLast?, p c = false) (hback : ∀ c ∈ back, p c = true) :
    takeEndWhile p (front ++ back) = back := by
  rw [takeEndWhile, List.reverse_append,
    takeWhile_append_of_head (by simpa using hback) (by simpa using hfront), List.reverse_reverse]

theorem trimEndWhile_eq_self {p : Char → Bool} {t : Text} (h : ∀ c ∈ t.getLast?, p c = false) :
    trimEndWhile p t = t := by
  rw [trimEndWhile, dropWhile_eq_self (by simpa using h), List.reverse_reverse]

theorem not_of_mem_getLast?_trimEndWhile {p : Char → Bool} {t : Text} {c : Char}
    (h : c ∈ (trimEndWhile p t).getLast?) : p c = false := by
  rw [trimEndWhile, List.getLast?_reverse] at h
  exact not_of_mem_head?_dropWhile h

theorem trimEndWhile_isPrefix (p : Char → Bool) (t : Text) : trimEndWhile p t <+: t :=
  ⟨takeEndWhile p t, trimEndWhile_append_takeEndWhile p t⟩

theorem mem_takeEndWhile {p : Char → Bool} {t : Text} {c : Char} (h : c ∈ takeEndWhile p t) :
    p c = true := by
  rw [takeEndWhile, List.mem_reverse] at h
  exact List.all_eq_true.1 List.all_takeWhile c h

/-- Trimming stops at the last character outside of the class, wherever that stands. -/
theorem trimEndWhile_append {p : Char → Bool} {front back : Text}
    (hfront : ∀ c ∈ front.getLast?, p c = false) :
    trimEndWhile p (front ++ back) = front ++ trimEndWhile p back := by
  have hsplit : front ++ back = front ++ trimEndWhile p back ++ takeEndWhile p back := by
    rw [List.append_assoc, trimEndWhile_append_takeEndWhile]
  rw [hsplit]
  refine trimEndWhile_append_of_getLast (fun c hc => ?_) fun c hc => mem_takeEndWhile hc
  rw [List.getLast?_append, Option.mem_def, Option.or_eq_some_iff] at hc
  rcases hc with hc | ⟨-, hc⟩
  · exact not_of_mem_getLast?_trimEndWhile hc
  · exact hfront c hc

/-! ### Both ends -/

theorem not_isBlank_of_mem_head?_trim {t : Text} {c : Char} (h : c ∈ (trim t).head?) :
    isBlank c = false := by
  obtain ⟨tail, htail⟩ := trimEndWhile_isPrefix isBlank (trimStart t)
  refine not_of_mem_head?_dropWhile (t := t) ?_
  show c ∈ (trimStart t).head?
  rw [← htail]
  rw [Option.mem_def, List.head?_append, show (trimEndWhile isBlank _).head? = some c from h]
  rfl

theorem not_isBlank_of_mem_getLast?_trim {t : Text} {c : Char} (h : c ∈ (trim t).getLast?) :
    isBlank c = false :=
  not_of_mem_getLast?_trimEndWhile h

theorem trim_subset (t : Text) : trim t ⊆ t :=
  fun _ h => List.dropWhile_subset _ ((trimEndWhile_isPrefix isBlank (trimStart t)).subset h)

/-- A text is trimmed exactly when no white space stands at either end. -/
theorem trim_eq_self_iff {t : Text} :
    trim t = t ↔ (∀ c ∈ t.head?, isBlank c = false) ∧ ∀ c ∈ t.getLast?, isBlank c = false := by
  constructor
  · intro h
    rw [← h]
    exact ⟨fun c hc => not_isBlank_of_mem_head?_trim hc,
      fun c hc => not_isBlank_of_mem_getLast?_trim hc⟩
  · rintro ⟨hhead, hlast⟩
    rw [trim, trimStart, dropWhile_eq_self hhead, trimEnd, trimEndWhile_eq_self hlast]

/-- Trimming once is enough. -/
@[simp] theorem trim_trim (t : Text) : trim (trim t) = trim t :=
  trim_eq_self_iff.2 ⟨fun _ h => not_isBlank_of_mem_head?_trim h,
    fun _ h => not_isBlank_of_mem_getLast?_trim h⟩

/-- White space behind a trimmed text is trimmed off. -/
theorem trim_append_of_trim_eq_self {t s : Text} (htrim : trim t = t) (hne : t ≠ [])
    (hs : ∀ c ∈ s, isBlank c = true) : trim (t ++ s) = t := by
  obtain ⟨hhead, hlast⟩ := trim_eq_self_iff.1 htrim
  obtain ⟨c, rest, rfl⟩ := List.exists_cons_of_ne_nil hne
  have hstart : trimStart (c :: rest ++ s) = c :: rest ++ s := dropWhile_eq_self hhead
  rw [trim, hstart, trimEnd, trimEndWhile_append_of_getLast hlast hs]

end Text

end SyntaxEdit
