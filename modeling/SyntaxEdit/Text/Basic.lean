/-
Texts and the cuts that can be made in them.

A text is a list of characters. Its offsets count UTF-8 bytes, so an offset that falls inside a
character, or past the end, names no place at which the text can be cut.

* `Text.byteLength` — the number of bytes of a text;
* `Text.cut?` — the two parts of a text at a byte offset, if it can be cut there;
* `Text.slice?` — the part between two offsets, if both are cuts and stand in order;
* `Text.cut?_eq_some_iff` — a cut loses nothing and its first part has the asked length;
* `Text.slice?_eq_some_iff` — the same for a slice.
-/

namespace SyntaxEdit

/-- Sources, contents, names and paths are lists of characters. -/
abbrev Text := List Char

namespace Text

/-- The number of UTF-8 bytes of a text. -/
def byteLength : Text → Nat
  | [] => 0
  | c :: rest => c.utf8Size + byteLength rest

@[simp] theorem byteLength_nil : byteLength [] = 0 := rfl

@[simp] theorem byteLength_cons (c : Char) (t : Text) :
    byteLength (c :: t) = c.utf8Size + byteLength t := rfl

@[simp] theorem byteLength_append (s t : Text) :
    byteLength (s ++ t) = byteLength s + byteLength t := by
  induction s with
  | nil => simp
  | cons c s ih => simp [ih, Nat.add_assoc]

/-- The two parts of a text at byte offset `n`. There is no cut inside a character. -/
def cut? : Text → Nat → Option (Text × Text)
  | t, 0 => some ([], t)
  | [], _ + 1 => none
  | c :: rest, n + 1 =>
    if c.utf8Size ≤ n + 1 then
      (cut? rest (n + 1 - c.utf8Size)).map fun (before, after) => (c :: before, after)
    else none

@[simp] theorem cut?_zero (t : Text) : cut? t 0 = some ([], t) := by
  cases t <;> rfl

/-- A cut at the end of a known front part gives back that part and the rest. -/
theorem cut?_append (s t : Text) : cut? (s ++ t) (byteLength s) = some (s, t) := by
  induction s with
  | nil => simp
  | cons c s ih =>
    have pos : 0 < c.utf8Size := Char.utf8Size_pos c
    obtain ⟨n, hn⟩ : ∃ n, c.utf8Size + byteLength s = n + 1 :=
      ⟨c.utf8Size + byteLength s - 1, by omega⟩
    have rest : n + 1 - c.utf8Size = byteLength s := by omega
    simp only [List.cons_append, byteLength_cons, hn, cut?]
    rw [if_pos (by omega), rest, ih]
    rfl

/-- A cut loses nothing, and its first part has the length asked for. -/
theorem cut?_eq_some_iff {t before after : Text} {n : Nat} :
    cut? t n = some (before, after) ↔ t = before ++ after ∧ byteLength before = n := by
  constructor
  · intro h
    fun_induction cut? t n generalizing before after with
    | case1 t =>
      obtain ⟨rfl, rfl⟩ := by simpa using h
      simp
    | case2 n => simp at h
    | case3 c rest n fits ih =>
      obtain ⟨⟨b, a⟩, found, same⟩ := Option.map_eq_some_iff.1 h
      obtain ⟨rfl, rfl⟩ := by simpa using same
      obtain ⟨whole, size⟩ := ih found
      exact ⟨by simp [whole], by simp only [byteLength_cons]; omega⟩
    | case4 => simp at h
  · rintro ⟨rfl, rfl⟩
    exact cut?_append before after

/-- The part of a text between two byte offsets. -/
def slice? (t : Text) (start stop : Nat) : Option Text := do
  let (front, _) ← cut? t stop
  let (_, middle) ← cut? front start
  return middle

/-- A slice is what stands between a front part and a rest of the right lengths. -/
theorem slice?_eq_some_iff {t s : Text} {start stop : Nat} :
    slice? t start stop = some s ↔
      ∃ before after, t = before ++ s ++ after ∧ byteLength before = start ∧
        byteLength (before ++ s) = stop := by
  constructor
  · intro h
    simp only [slice?, bind, Option.bind_eq_some_iff, Prod.exists] at h
    obtain ⟨front, after, atStop, before, middle, atStart, same⟩ := h
    obtain ⟨whole, size⟩ := cut?_eq_some_iff.1 atStop
    obtain ⟨split, start_eq⟩ := cut?_eq_some_iff.1 atStart
    obtain rfl : middle = s := by simpa using same
    exact ⟨before, after, by rw [whole, split], start_eq, by rw [← split]; exact size⟩
  · rintro ⟨before, after, rfl, rfl, rfl⟩
    simp only [slice?, cut?_append (before ++ s) after, cut?_append before s, bind,
      Option.bind_some]
    rfl

/-- The text between two offsets, empty where there is no such slice. -/
def slice (t : Text) (start stop : Nat) : Text :=
  (slice? t start stop).getD []

/-! ### Trimming by a class of characters -/

/-- A text without the longest end part whose characters satisfy `p`. -/
def trimEndWhile (p : Char → Bool) (t : Text) : Text :=
  (t.reverse.dropWhile p).reverse

/-- The longest end part of a text whose characters satisfy `p`. -/
def takeEndWhile (p : Char → Bool) (t : Text) : Text :=
  (t.reverse.takeWhile p).reverse

/-- What is trimmed off and what is kept make up the text. -/
theorem trimEndWhile_append_takeEndWhile (p : Char → Bool) (t : Text) :
    trimEndWhile p t ++ takeEndWhile p t = t := by
  rw [trimEndWhile, takeEndWhile, ← List.reverse_append, List.takeWhile_append_dropWhile,
    List.reverse_reverse]

/-! ### Splitting at a character -/

/-- The pieces of a text between the occurrences of a character; one more piece than
occurrences. -/
def splitOn (separator : Char) : Text → List Text
  | [] => [[]]
  | c :: rest =>
    if c = separator then [] :: splitOn separator rest
    else
      match splitOn separator rest with
      | [] => [[c]]
      | piece :: pieces => (c :: piece) :: pieces

theorem splitOn_ne_nil (separator : Char) (t : Text) : splitOn separator t ≠ [] := by
  cases t with
  | nil => simp [splitOn]
  | cons c rest =>
    simp only [splitOn]
    split
    · simp
    · split <;> simp

/-- Pieces with one separator text between any two of them. -/
def joinWith (separator : Text) : List Text → Text
  | [] => []
  | [piece] => piece
  | piece :: next :: pieces => piece ++ separator ++ joinWith separator (next :: pieces)

/-- Joining the pieces of a text gives the text back. -/
theorem joinWith_splitOn (separator : Char) (t : Text) :
    joinWith [separator] (splitOn separator t) = t := by
  induction t with
  | nil => rfl
  | cons c rest ih =>
    simp only [splitOn]
    split
    · rename_i same
      subst same
      cases h : splitOn c rest with
      | nil => exact absurd h (splitOn_ne_nil c rest)
      | cons piece pieces => rw [h] at ih; simp [joinWith, ih]
    · cases h : splitOn separator rest with
      | nil => exact absurd h (splitOn_ne_nil separator rest)
      | cons piece pieces =>
        rw [h] at ih
        cases pieces with
        | nil => simpa [joinWith] using ih
        | cons next pieces => simpa [joinWith] using ih

/-- Every occurrence of `old` written as the text `new`. -/
def replaceChar (old : Char) (new : Text) (t : Text) : Text :=
  t.flatMap fun c => if c = old then new else [c]

/-- Whether a text occurs somewhere in another. -/
def occursIn (part : Text) : Text → Bool
  | [] => part.isEmpty
  | c :: rest => part.isPrefixOf (c :: rest) || occursIn part rest

end Text

end SyntaxEdit
