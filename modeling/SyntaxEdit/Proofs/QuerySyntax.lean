/-
The language of query texts, as a relation between a text, what it denotes, and what is left of it.

* `Query.ReadsArguments`, `Query.ReadsPredicate`, `Query.ReadsCaptures` — the parts around patterns;
* `Query.Reads` — patterns, with the parts that only stand inside of them;
* `Query.ReadsTop` — the top-level patterns of a whole text;
* `length_lt_of_reads`, `head?_ne_of_reads` — reading uses up some of the text, and a pattern starts
  with one of a few characters.
-/
import SyntaxEdit.Query.Compile

namespace SyntaxEdit

namespace Query

variable {grammar : Grammar} {met met' : Met} {t rest final : Text}

theorem bind_eq_ok_iff {ε α β : Type} {x : Except ε α} {f : α → Except ε β} {b : β} :
    (x >>= f) = .ok b ↔ ∃ a, x = .ok a ∧ f a = .ok b := by
  cases x with
  | error e => simp [bind, Except.bind]
  | ok a => simp [bind, Except.bind]

theorem exists_eq_succ_of_lt {n fuel : Nat} (h : n < fuel) : ∃ k, fuel = k + 1 ∧ n ≤ k :=
  ⟨fuel - 1, by omega, by omega⟩

/-! ### Blanks, names and strings -/

theorem length_skipSpaceFrom_le (inComment : Bool) (t : Text) :
    (skipSpaceFrom inComment t).length ≤ t.length := by
  fun_induction skipSpaceFrom inComment t with
  | case1 => exact Nat.le_refl _
  | case2 _ _ ih => exact Nat.le_succ_of_le ih
  | case3 _ _ _ _ _ ih => exact Nat.le_succ_of_le ih
  | case4 _ _ _ _ ih => exact Nat.le_succ_of_le ih
  | case5 => exact Nat.le_refl _

theorem length_skipSpace_le (t : Text) : (skipSpace t).length ≤ t.length :=
  length_skipSpaceFrom_le false t

theorem length_skipSpace_lt {n : Nat} (h : t.length < n) : (skipSpace t).length < n :=
  Nat.lt_of_le_of_lt (length_skipSpace_le t) h

/-- A name starts with one of the characters it can start with, and ends where no more of its
characters follow. -/
theorem readName?_eq_some_iff {name : String} :
    readName? t = some (name, rest) ↔
      (∃ c ∈ t.head?, startsName c = true) ∧ name = String.ofList (t.takeWhile inName) ∧
        rest = t.dropWhile inName := by
  cases t with
  | nil => simp [readName?]
  | cons c t =>
    by_cases hc : startsName c = true
    · simp only [readName?, hc, if_true, Option.some.injEq, Prod.mk.injEq, List.head?_cons,
        Option.mem_def, exists_eq_left', true_and]
      exact and_congr eq_comm eq_comm
    · simp [readName?, hc]

theorem head?_ne_of_readName? {name : String} {c : Char} (h : readName? t = some (name, rest))
    (hc : startsName c = false) : t.head? ≠ some c := by
  intro hhead
  obtain ⟨⟨d, hd, hstarts⟩, -⟩ := readName?_eq_some_iff.1 h
  cases hhead.symm.trans hd
  cases hc.symm.trans hstarts

theorem length_lt_of_readName? {name : String} (h : readName? t = some (name, rest)) :
    rest.length < t.length := by
  obtain ⟨⟨c, hhead, hc⟩, -, rfl⟩ := readName?_eq_some_iff.1 h
  obtain ⟨t, rfl⟩ := List.head?_eq_some_iff.1 hhead
  rw [List.dropWhile_cons_of_pos (by simp [inName, hc]), List.length_cons]
  exact Nat.lt_succ_of_le (List.dropWhile_sublist _).length_le

theorem length_lt_of_readStringBody? {value : Text} (h : readStringBody? t = some (value, rest)) :
    rest.length < t.length := by
  fun_induction readStringBody? t generalizing value with
  | case1 => cases h
  | case2 => cases h; exact Nat.lt_succ_self _
  | case3 => cases h
  | case4 c t ih =>
    obtain ⟨⟨value', rest'⟩, hbody, heq⟩ := Option.map_eq_some_iff.1 h
    cases heq
    exact Nat.lt_succ_of_lt (Nat.lt_succ_of_lt (ih hbody))
  | case5 c t _ _ _ ih =>
    obtain ⟨⟨value', rest'⟩, hbody, heq⟩ := Option.map_eq_some_iff.1 h
    cases heq
    exact Nat.lt_succ_of_lt (ih hbody)

theorem readString_eq_ok_iff {value : Text} :
    readString t = .ok (value, rest) ↔
      ∃ body, t = '"' :: body ∧ readStringBody? body = some (value, rest) := by
  unfold readString
  split
  · rename_i body
    cases hbody : readStringBody? body <;> simp [hbody]
  · rename_i hquote
    constructor
    · intro h
      cases h
    · rintro ⟨body, rfl, -⟩
      exact absurd rfl (hquote body)

theorem length_lt_of_readString {value : Text} (h : readString t = .ok (value, rest)) :
    rest.length < t.length := by
  obtain ⟨body, rfl, hbody⟩ := readString_eq_ok_iff.1 h
  exact Nat.lt_succ_of_lt (length_lt_of_readStringBody? hbody)

/-! ### Predicates -/

/-- The arguments of a predicate, up to its closing bracket. -/
inductive ReadsArguments (met : Met) : Text → List Argument → Text → Prop
  | close {rest : Text} : ReadsArguments met (')' :: rest) [] rest
  | capture {rest after final : Text} {name : String} {arguments : List Argument}
      (hname : readName? rest = some (name, after)) (hknown : met.captures.contains name = true)
      (harguments : ReadsArguments met (skipSpace after) arguments final) :
      ReadsArguments met ('@' :: rest) (.capture name :: arguments) final
  | string {t after final value : Text} {arguments : List Argument}
      (hvalue : readString t = .ok (value, after))
      (harguments : ReadsArguments met (skipSpace after) arguments final) :
      ReadsArguments met t (.text value :: arguments) final
  | name {t after final : Text} {name : String} {arguments : List Argument}
      (hname : readName? t = some (name, after))
      (harguments : ReadsArguments met (skipSpace after) arguments final) :
      ReadsArguments met t (.text name.toList :: arguments) final

theorem ReadsArguments.length_lt {arguments : List Argument}
    (h : ReadsArguments met t arguments final) : final.length < t.length := by
  induction h with
  | close => exact Nat.lt_succ_self _
  | capture hname _ _ ih =>
    have hafter := length_skipSpace_lt (length_lt_of_readName? hname)
    exact Nat.lt_succ_of_lt (Nat.lt_trans ih hafter)
  | string hvalue _ ih =>
    exact Nat.lt_trans ih (length_skipSpace_lt (length_lt_of_readString hvalue))
  | name hname _ ih => exact Nat.lt_trans ih (length_skipSpace_lt (length_lt_of_readName? hname))

/-- With enough fuel, the arguments are read as the relation says. -/
theorem readsArguments_of_readArguments {fuel : Nat} {arguments : List Argument}
    (h : readArguments met fuel t = .ok (arguments, final)) :
    ReadsArguments met t arguments final := by
  induction fuel generalizing t arguments final with
  | zero => cases h
  | succ fuel ih =>
    unfold readArguments at h
    split at h
    · cases h
      exact .close
    · split at h
      · cases h
      · rename_i rest name after hname
        split at h
        · rename_i hknown
          obtain ⟨⟨others, final'⟩, hothers, heq⟩ := bind_eq_ok_iff.1 h
          cases heq
          exact .capture hname hknown (ih hothers)
        · cases h
    · obtain ⟨⟨value, after⟩, hvalue, hrest⟩ := bind_eq_ok_iff.1 h
      obtain ⟨⟨others, final'⟩, hothers, heq⟩ := bind_eq_ok_iff.1 hrest
      cases heq
      exact .string hvalue (ih hothers)
    · split at h
      · cases h
      · rename_i name after hname
        obtain ⟨⟨others, final'⟩, hothers, heq⟩ := bind_eq_ok_iff.1 h
        cases heq
        exact .name hname (ih hothers)

theorem readArguments_of_readsArguments {arguments : List Argument}
    (h : ReadsArguments met t arguments final) {fuel : Nat} (hfuel : t.length ≤ fuel) :
    readArguments met fuel t = .ok (arguments, final) := by
  induction h generalizing fuel with
  | close =>
    obtain ⟨fuel, rfl, -⟩ := exists_eq_succ_of_lt hfuel
    rfl
  | @capture rest after final name arguments hname hknown _ ih =>
    obtain ⟨fuel, rfl, hle⟩ := exists_eq_succ_of_lt hfuel
    have hafter := Nat.lt_of_lt_of_le (length_lt_of_readName? hname) hle
    have hothers := ih (Nat.le_of_lt (length_skipSpace_lt hafter))
    simp only [readArguments, hname, hknown, if_true]
    exact bind_eq_ok_iff.2 ⟨_, hothers, rfl⟩
  | @string t after final value arguments hvalue _ ih =>
    obtain ⟨fuel, rfl, hle⟩ :=
      exists_eq_succ_of_lt (Nat.lt_of_lt_of_le (length_lt_of_readString hvalue) hfuel)
    have hothers := ih (Nat.le_trans (length_skipSpace_le after) hle)
    obtain ⟨body, rfl, -⟩ := readString_eq_ok_iff.1 hvalue
    simp only [readArguments]
    exact bind_eq_ok_iff.2 ⟨_, hvalue, bind_eq_ok_iff.2 ⟨_, hothers, rfl⟩⟩
  | @name t after final name arguments hname _ ih =>
    obtain ⟨fuel, rfl, hle⟩ :=
      exists_eq_succ_of_lt (Nat.lt_of_lt_of_le (length_lt_of_readName? hname) hfuel)
    have hothers := ih (Nat.le_trans (length_skipSpace_le after) hle)
    -- A name starts with none of the marks that the branches before it look for.
    unfold readArguments
    split
    · exact absurd rfl (head?_ne_of_readName? hname (by decide))
    · exact absurd rfl (head?_ne_of_readName? hname (by decide))
    · exact absurd rfl (head?_ne_of_readName? hname (by decide))
    · rw [hname]
      exact bind_eq_ok_iff.2 ⟨_, hothers, rfl⟩

/-- A predicate from its name on, with the condition that it adds. -/
inductive ReadsPredicate (met : Met) : Text → Met → Text → Prop
  | intro {t after final : Text} {name : String} {mark : Char} {arguments : List Argument}
      (hname : readName? t = some (name, mark :: after)) (hmark : mark = '?' ∨ mark = '!')
      (harguments : ReadsArguments met (skipSpace after) arguments final) :
      ReadsPredicate met t
        { met with predicates :=
            met.predicates ++ (predicate? (name.push mark) arguments).toList } (skipSpace final)

theorem readPredicate_eq_ok_iff :
    readPredicate met t = .ok (met', final) ↔ ReadsPredicate met t met' final := by
  constructor
  · intro h
    unfold readPredicate at h
    split at h
    · cases h
    · rename_i name rest hname
      split at h
      · rename_i mark after
        split at h
        · rename_i hmark
          obtain ⟨⟨arguments, final'⟩, harguments, heq⟩ := bind_eq_ok_iff.1 h
          cases heq
          exact .intro hname hmark (readsArguments_of_readArguments harguments)
        · cases h
      · cases h
  · rintro ⟨hname, hmark, harguments⟩
    have hread := readArguments_of_readsArguments harguments (Nat.le_succ _)
    simp only [readPredicate, hname, if_pos hmark]
    exact bind_eq_ok_iff.2 ⟨_, hread, rfl⟩

theorem ReadsPredicate.length_lt (h : ReadsPredicate met t met' final) :
    final.length < t.length := by
  obtain ⟨hname, -, harguments⟩ := h
  have hmark := Nat.lt_of_succ_lt (length_lt_of_readName? hname)
  exact length_skipSpace_lt (Nat.lt_trans harguments.length_lt (length_skipSpace_lt hmark))

/-- The text of a predicate starts behind a bracket and a hash. -/
theorem predicateStart?_eq_some_iff {start : Text} :
    predicateStart? t = some start ↔ ∃ rest, t = '(' :: rest ∧ skipSpace rest = '#' :: start := by
  unfold predicateStart?
  split
  · rename_i rest
    split
    · rename_i after hskip
      simp [hskip]
    · rename_i hhash
      constructor
      · intro h
        cases h
      · rintro ⟨rest', heq, hskip⟩
        cases heq
        exact absurd hskip (hhash start)
  · rename_i hround
    constructor
    · intro h
      cases h
    · rintro ⟨rest, rfl, -⟩
      exact absurd rfl (hround rest)

theorem length_lt_of_predicateStart? {start : Text} (h : predicateStart? t = some start) :
    start.length < t.length := by
  obtain ⟨rest, rfl, hskip⟩ := predicateStart?_eq_some_iff.1 h
  have hle := length_skipSpace_le rest
  rw [hskip] at hle
  exact Nat.lt_succ_of_lt hle

/-! ### Captures -/

/-- The captures behind a pattern, with the pattern that they make of it. -/
inductive ReadsCaptures : Met → Pattern → Text → Pattern → Met → Text → Prop
  | done {met : Met} {pattern : Pattern} {t : Text} (h : t.head? ≠ some '@') :
      ReadsCaptures met pattern t pattern met t
  | capture {met met' : Met} {pattern captured : Pattern} {rest after final : Text} {name : String}
      (hname : readName? rest = some (name, after))
      (hcaptures : ReadsCaptures (met.withCapture name) (.captured pattern name) (skipSpace after)
        captured met' final) :
      ReadsCaptures met pattern ('@' :: rest) captured met' final

variable {pattern captured : Pattern}

theorem ReadsCaptures.length_le (h : ReadsCaptures met pattern t captured met' final) :
    final.length ≤ t.length := by
  induction h with
  | done => exact Nat.le_refl _
  | capture hname _ ih =>
    have hafter := Nat.le_of_lt (length_skipSpace_lt (length_lt_of_readName? hname))
    exact Nat.le_succ_of_le (Nat.le_trans ih hafter)

theorem ReadsCaptures.length_lt {n : Nat}
    (h : ReadsCaptures met pattern (skipSpace t) captured met' final) (ht : t.length < n) :
    final.length < n :=
  Nat.lt_of_le_of_lt h.length_le (length_skipSpace_lt ht)

theorem readsCaptures_of_readCaptures {fuel : Nat}
    (h : readCaptures met pattern fuel t = .ok (captured, met', final)) :
    ReadsCaptures met pattern t captured met' final := by
  induction fuel generalizing met pattern t with
  | zero => cases h
  | succ fuel ih =>
    unfold readCaptures at h
    split at h
    · split at h
      · cases h
      · rename_i name after hname
        exact .capture hname (ih h)
    · rename_i hmark
      cases h
      refine .done fun hhead => ?_
      obtain ⟨rest, rfl⟩ := List.head?_eq_some_iff.1 hhead
      exact absurd rfl (hmark rest)

theorem readCaptures_of_readsCaptures (h : ReadsCaptures met pattern t captured met' final)
    {fuel : Nat} (hfuel : t.length < fuel) :
    readCaptures met pattern fuel t = .ok (captured, met', final) := by
  induction h generalizing fuel with
  | done hmark =>
    obtain ⟨fuel, rfl, -⟩ := exists_eq_succ_of_lt hfuel
    unfold readCaptures
    split
    · exact absurd rfl hmark
    · rfl
  | @capture met met' pattern captured rest after final name hname _ ih =>
    obtain ⟨fuel, rfl, hle⟩ := exists_eq_succ_of_lt hfuel
    have hafter := length_skipSpace_lt (length_lt_of_readName? hname)
    simp only [readCaptures, hname]
    exact ih (Nat.lt_of_lt_of_le hafter (Nat.le_of_succ_le hle))

theorem finish_eq_ok_iff :
    finish met pattern t = .ok (captured, met', final) ↔
      ReadsCaptures met pattern (skipSpace t) captured met' final :=
  ⟨readsCaptures_of_readCaptures, fun h => readCaptures_of_readsCaptures h (Nat.lt_succ_self _)⟩

/-! ### Patterns -/

/-- What can be read with patterns inside of it. -/
inductive Form where
  | pattern
  | alternatives
  | group
  | groupEnd
  | steps (first : Bool)

/-- What a piece of a text denotes. -/
inductive Reading where
  | pattern (pattern : Pattern)
  | alternatives (patterns : List Pattern)
  | steps (steps : Steps)
  | nothing

/-- Whether a text starts with the one pattern of a group. -/
def StartsGroup (t : Text) : Prop :=
  ∃ c ∈ t.head?, c = '(' ∨ c = '"' ∨ c = '['

/-- The anchor before a child, if there is one, and the text behind it. -/
def anchor (t : Text) : Bool × Text :=
  match t with
  | '.' :: rest => (true, skipSpace rest)
  | _ => (false, t)

/-- A piece of a query text, what it denotes, and the rest of the text. -/
inductive Reads (grammar : Grammar) : Form → Met → Text → Reading → Met → Text → Prop
  | oneOf {met met₁ met' : Met} {rest t₁ final : Text} {alternatives : List Pattern}
      {captured : Pattern}
      (halternatives : Reads grammar .alternatives met (skipSpace rest) (.alternatives alternatives)
        met₁ t₁)
      (hcaptures : ReadsCaptures met₁ (.oneOf alternatives) (skipSpace t₁) captured met' final) :
      Reads grammar .pattern met ('[' :: rest) (.pattern captured) met' final
  | inGroup {met met' : Met} {rest final : Text} {captured : Pattern}
      (hstarts : StartsGroup (skipSpace rest))
      (hgroup : Reads grammar .group met (skipSpace rest) (.pattern captured) met' final) :
      Reads grammar .pattern met ('(' :: rest) (.pattern captured) met' final
  | node {met met₁ met' : Met} {rest after t₁ final : Text} {name : String} {test : NodeTest}
      {steps : Steps} {captured : Pattern} (hname : readName? (skipSpace rest) = some (name, after))
      (htest : testOfName? grammar name = some test)
      (hsteps : Reads grammar (.steps true) met (skipSpace after) (.steps steps) met₁ t₁)
      (hcaptures : ReadsCaptures met₁ (.node test steps) (skipSpace t₁) captured met' final) :
      Reads grammar .pattern met ('(' :: rest) (.pattern captured) met' final
  | token {met met' : Met} {rest token after final : Text} {captured : Pattern}
      (htoken : readString ('"' :: rest) = .ok (token, after))
      (hknown : grammar.knowsToken (String.ofList token) = true)
      (hcaptures : ReadsCaptures met (.node (.token (String.ofList token)) (.done false))
        (skipSpace after) captured met' final) :
      Reads grammar .pattern met ('"' :: rest) (.pattern captured) met' final
  | wildcard {met met' : Met} {rest final : Text} {captured : Pattern}
      (hcaptures : ReadsCaptures met (.node .any (.done false)) (skipSpace rest) captured met'
        final) :
      Reads grammar .pattern met ('_' :: rest) (.pattern captured) met' final
  | inField {met met₁ met' : Met} {t after rest t₁ final : Text} {field : String}
      {pattern captured : Pattern} (hstart : t.head? ≠ some '_')
      (hname : readName? t = some (field, after)) (hcolon : skipSpace after = ':' :: rest)
      (hpattern : Reads grammar .pattern met (skipSpace rest) (.pattern pattern) met₁ t₁)
      (hknown : grammar.knowsField field = true)
      (hcaptures : ReadsCaptures met₁ (.inField field pattern) (skipSpace t₁) captured met' final) :
      Reads grammar .pattern met t (.pattern captured) met' final
  | last {met met' : Met} {t final : Text} {pattern : Pattern}
      (hpattern : Reads grammar .pattern met t (.pattern pattern) met' (']' :: final)) :
      Reads grammar .alternatives met t (.alternatives [pattern]) met' final
  | more {met met₁ met' : Met} {t t₁ final : Text} {pattern : Pattern} {others : List Pattern}
      (hpattern : Reads grammar .pattern met t (.pattern pattern) met₁ t₁)
      (hopen : t₁.head? ≠ some ']')
      (hothers : Reads grammar .alternatives met₁ t₁ (.alternatives others) met' final) :
      Reads grammar .alternatives met t (.alternatives (pattern :: others)) met' final
  | groupPredicate {met met₁ met' : Met} {t start t₁ final : Text} {captured : Pattern}
      (hstart : predicateStart? t = some start) (hpredicate : ReadsPredicate met start met₁ t₁)
      (hgroup : Reads grammar .group met₁ t₁ (.pattern captured) met' final) :
      Reads grammar .group met t (.pattern captured) met' final
  | groupPattern {met met₁ met₂ met' : Met} {t t₁ t₂ final : Text} {pattern captured : Pattern}
      (hstart : predicateStart? t = none)
      (hpattern : Reads grammar .pattern met t (.pattern pattern) met₁ t₁)
      (hend : Reads grammar .groupEnd met₁ t₁ .nothing met₂ t₂)
      (hcaptures : ReadsCaptures met₂ pattern (skipSpace t₂) captured met' final) :
      Reads grammar .group met t (.pattern captured) met' final
  | groupClose {met : Met} {rest : Text} :
      Reads grammar .groupEnd met (')' :: rest) .nothing met rest
  | endPredicate {met met₁ met' : Met} {t start t₁ final : Text}
      (hstart : predicateStart? t = some start) (hpredicate : ReadsPredicate met start met₁ t₁)
      (hend : Reads grammar .groupEnd met₁ t₁ .nothing met' final) :
      Reads grammar .groupEnd met t .nothing met' final
  | nodeClose {met : Met} {first anchored : Bool} {t rest : Text}
      (hanchor : anchor t = (anchored, ')' :: rest)) (hlast : ¬ (anchored = true ∧ first = true)) :
      Reads grammar (.steps first) met t (.steps (.done anchored)) met rest
  | stepPredicate {met met₁ met' : Met} {first anchored : Bool} {t body start t₁ final : Text}
      {steps : Steps} (hanchor : anchor t = (anchored, body))
      (hstart : predicateStart? body = some start) (hpredicate : ReadsPredicate met start met₁ t₁)
      (hsteps : Reads grammar (.steps first) met₁ t₁ (.steps steps) met' final) :
      Reads grammar (.steps first) met t (.steps steps) met' final
  | step {met met₁ met' : Met} {first anchored : Bool} {t body t₁ final : Text} {pattern : Pattern}
      {steps : Steps} (hanchor : anchor t = (anchored, body))
      (hstart : predicateStart? body = none)
      (hpattern : Reads grammar .pattern met body (.pattern pattern) met₁ t₁)
      (hsteps : Reads grammar (.steps false) met₁ t₁ (.steps steps) met' final) :
      Reads grammar (.steps first) met t (.steps (.next anchored pattern steps)) met' final

variable {form : Form} {reading : Reading}

theorem length_le_of_anchor {anchored : Bool} {body : Text} (h : anchor t = (anchored, body)) :
    body.length ≤ t.length := by
  unfold anchor at h
  split at h
  · cases h
    exact Nat.le_succ_of_le (length_skipSpace_le _)
  · cases h
    exact Nat.le_refl _

/-- Reading uses up some of the text. -/
theorem length_lt_of_reads (h : Reads grammar form met t reading met' final) :
    final.length < t.length := by
  -- Every form reads at least one character, so what it leaves is shorter.
  induction h with
  | oneOf _ hcaptures ih =>
    have hlist := Nat.lt_of_lt_of_le ih (length_skipSpace_le _)
    exact hcaptures.length_lt (Nat.lt_succ_of_lt hlist)
  | inGroup _ _ ih => exact Nat.lt_succ_of_lt (Nat.lt_of_lt_of_le ih (length_skipSpace_le _))
  | node hname _ _ hcaptures ih =>
    have hafter := Nat.lt_of_lt_of_le (length_lt_of_readName? hname) (length_skipSpace_le _)
    exact hcaptures.length_lt (Nat.lt_succ_of_lt (Nat.lt_trans ih (length_skipSpace_lt hafter)))
  | token htoken _ hcaptures => exact hcaptures.length_lt (length_lt_of_readString htoken)
  | wildcard hcaptures => exact hcaptures.length_lt (Nat.lt_succ_self _)
  | inField _ hname hcolon _ _ hcaptures ih =>
    have hrest := length_skipSpace_lt (length_lt_of_readName? hname)
    rw [hcolon] at hrest
    exact hcaptures.length_lt (Nat.lt_trans ih (length_skipSpace_lt (Nat.lt_of_succ_lt hrest)))
  | last _ ih => exact Nat.lt_of_succ_lt ih
  | more _ _ _ ih ih' => exact Nat.lt_trans ih' ih
  | groupPredicate hstart hpredicate _ ih =>
    exact Nat.lt_trans ih (Nat.lt_trans hpredicate.length_lt (length_lt_of_predicateStart? hstart))
  | groupPattern _ _ _ hcaptures ih ih' => exact hcaptures.length_lt (Nat.lt_trans ih' ih)
  | groupClose => exact Nat.lt_succ_self _
  | endPredicate hstart hpredicate _ ih =>
    exact Nat.lt_trans ih (Nat.lt_trans hpredicate.length_lt (length_lt_of_predicateStart? hstart))
  | nodeClose hanchor => exact length_le_of_anchor hanchor
  | stepPredicate hanchor hstart hpredicate _ ih =>
    have hbody := Nat.lt_trans hpredicate.length_lt (length_lt_of_predicateStart? hstart)
    exact Nat.lt_trans ih (Nat.lt_of_lt_of_le hbody (length_le_of_anchor hanchor))
  | step hanchor _ _ _ ih ih' =>
    exact Nat.lt_trans ih' (Nat.lt_of_lt_of_le ih (length_le_of_anchor hanchor))

/-- The characters that a pattern can start with. -/
def startsPattern (c : Char) : Bool :=
  c = '[' || c = '(' || c = '"' || startsName c

theorem head?_ne_of_reads {c : Char} (h : Reads grammar .pattern met t reading met' final)
    (hc : startsPattern c = false) : t.head? ≠ some c := by
  obtain ⟨d, hd, hstarts⟩ : ∃ d ∈ t.head?, startsPattern d = true := by
    cases h with
    | oneOf => exact ⟨'[', rfl, rfl⟩
    | inGroup => exact ⟨'(', rfl, rfl⟩
    | node => exact ⟨'(', rfl, rfl⟩
    | token => exact ⟨'"', rfl, rfl⟩
    | wildcard => exact ⟨'_', rfl, rfl⟩
    | inField _ hname =>
      obtain ⟨⟨d, hd, hstarts⟩, -⟩ := readName?_eq_some_iff.1 hname
      exact ⟨d, hd, by simp [startsPattern, hstarts]⟩
  intro hhead
  cases hhead.symm.trans hd
  cases hc.symm.trans hstarts

/-! ### Whole texts -/

/-- The top-level patterns of a text that starts with no white space, after some captures. -/
inductive ReadsTop (grammar : Grammar) : List String → Text → Query → Prop
  | done {captures : List String} : ReadsTop grammar captures [] ⟨[], captures⟩
  | pattern {captures : List String} {t rest : Text} {pattern : Pattern} {met : Met} {query : Query}
      (hstart : predicateStart? t = none)
      (hpattern : Reads grammar .pattern ⟨captures, []⟩ t (.pattern pattern) met rest)
      (hrest : ReadsTop grammar met.captures rest query) :
      ReadsTop grammar captures t
        ⟨⟨pattern, met.predicates⟩ :: query.patterns, query.captureNames⟩

end Query

end SyntaxEdit
