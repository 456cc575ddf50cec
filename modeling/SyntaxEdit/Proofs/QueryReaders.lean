/-
The readers of the query compiler read the language of query texts.

* `reads_of_runs` — what a reader returns can be read;
* `runs_of_reads` — what can be read is returned, given fuel for the length of the text;
* `compile_eq_ok_iff` — so a text compiles to a query exactly if the query can be read from it, and
  the fuel never runs out.
-/
import SyntaxEdit.Proofs.QuerySyntax

namespace SyntaxEdit

namespace Query

variable {grammar : Grammar} {met met' : Met} {t final : Text} {captured : Pattern} {form : Form}
  {reading : Reading}

/-! ### The readers -/

/-- What the reader for a form returns with some fuel. -/
def Runs (grammar : Grammar) (fuel : Nat) (met : Met) (t : Text) :
    Form → Reading → Met → Text → Prop
  | .pattern, .pattern pattern, met', final =>
    readPattern grammar met fuel t = .ok (pattern, met', final)
  | .alternatives, .alternatives patterns, met', final =>
    readAlternatives grammar met fuel t = .ok (patterns, met', final)
  | .group, .pattern pattern, met', final =>
    readGroup grammar met fuel t = .ok (pattern, met', final)
  | .groupEnd, .nothing, met', final => readGroupEnd met fuel t = .ok (met', final)
  | .steps first, .steps steps, met', final =>
    readSteps grammar met fuel first t = .ok (steps, met', final)
  | _, _, _, _ => False

section Sound

variable {fuel : Nat} (ih : ∀ (form : Form) {met : Met} {t : Text} (reading : Reading) {met' : Met}
  {final : Text}, Runs grammar fuel met t form reading met' final →
    Reads grammar form met t reading met' final)
include ih

theorem reads_of_readPattern
    (h : readPattern grammar met (fuel + 1) t = .ok (captured, met', final)) :
    Reads grammar .pattern met t (.pattern captured) met' final := by
  -- The cases are the branches of the reader, in its order.
  unfold readPattern at h
  split at h
  · obtain ⟨⟨alternatives, met₁, t₁⟩, halternatives, hfinish⟩ := bind_eq_ok_iff.1 h
    exact .oneOf (ih .alternatives (.alternatives _) halternatives) (finish_eq_ok_iff.1 hfinish)
  · rename_i rest
    dsimp only at h
    split at h
    · rename_i hbody
      exact .inGroup ⟨'(', by simp [hbody], .inl rfl⟩ (ih .group (.pattern _) h)
    · rename_i hbody
      exact .inGroup ⟨'"', by simp [hbody], .inr (.inl rfl)⟩ (ih .group (.pattern _) h)
    · rename_i hbody
      exact .inGroup ⟨'[', by simp [hbody], .inr (.inr rfl)⟩ (ih .group (.pattern _) h)
    · split at h
      · cases h
      · rename_i name after hname
        split at h
        · cases h
        · rename_i test htest
          obtain ⟨⟨steps, met₁, t₁⟩, hsteps, hfinish⟩ := bind_eq_ok_iff.1 h
          exact .node hname htest (ih (.steps true) (.steps _) hsteps) (finish_eq_ok_iff.1 hfinish)
  · obtain ⟨⟨token, after⟩, htoken, h⟩ := bind_eq_ok_iff.1 h
    dsimp only at h
    split at h
    · rename_i hknown
      exact .token htoken hknown (finish_eq_ok_iff.1 h)
    · cases h
  · exact .wildcard (finish_eq_ok_iff.1 h)
  · rename_i hwildcard
    split at h
    · cases h
    · rename_i field after hname
      split at h
      · rename_i rest hcolon
        obtain ⟨⟨pattern, met₁, t₁⟩, hpattern, h⟩ := bind_eq_ok_iff.1 h
        dsimp only at h
        split at h
        · rename_i hknown
          -- A field does not start with the wildcard, whose branch comes first.
          refine .inField (fun hstart => ?_) hname hcolon (ih .pattern (.pattern _) hpattern) hknown
            (finish_eq_ok_iff.1 h)
          obtain ⟨tail, rfl⟩ := List.head?_eq_some_iff.1 hstart
          exact hwildcard tail rfl
        · cases h
      · cases h

theorem reads_of_readAlternatives {patterns : List Pattern}
    (h : readAlternatives grammar met (fuel + 1) t = .ok (patterns, met', final)) :
    Reads grammar .alternatives met t (.alternatives patterns) met' final := by
  unfold readAlternatives at h
  obtain ⟨⟨first, met₁, t₁⟩, hfirst, h⟩ := bind_eq_ok_iff.1 h
  have hpattern := ih .pattern (.pattern _) hfirst
  dsimp only at h
  split at h
  · cases h
    exact .last hpattern
  · rename_i hopen
    obtain ⟨⟨others, met₂, t₂⟩, hothers, h⟩ := bind_eq_ok_iff.1 h
    cases h
    refine .more hpattern (fun hclose => ?_) (ih .alternatives (.alternatives _) hothers)
    obtain ⟨tail, rfl⟩ := List.head?_eq_some_iff.1 hclose
    exact hopen tail rfl

theorem reads_of_readGroup (h : readGroup grammar met (fuel + 1) t = .ok (captured, met', final)) :
    Reads grammar .group met t (.pattern captured) met' final := by
  unfold readGroup at h
  split at h
  · rename_i start hstart
    obtain ⟨⟨met₁, t₁⟩, hpredicate, h⟩ := bind_eq_ok_iff.1 h
    exact .groupPredicate hstart (readPredicate_eq_ok_iff.1 hpredicate) (ih .group (.pattern _) h)
  · rename_i hstart
    obtain ⟨⟨pattern, met₁, t₁⟩, hpattern, h⟩ := bind_eq_ok_iff.1 h
    obtain ⟨⟨met₂, t₂⟩, hend, h⟩ := bind_eq_ok_iff.1 h
    exact .groupPattern hstart (ih .pattern (.pattern _) hpattern) (ih .groupEnd .nothing hend)
      (finish_eq_ok_iff.1 h)

theorem reads_of_readGroupEnd (h : readGroupEnd met (fuel + 1) t = .ok (met', final)) :
    Reads grammar .groupEnd met t .nothing met' final := by
  unfold readGroupEnd at h
  split at h
  · cases h
    exact .groupClose
  · split at h
    · rename_i start hstart
      obtain ⟨⟨met₁, t₁⟩, hpredicate, h⟩ := bind_eq_ok_iff.1 h
      exact .endPredicate hstart (readPredicate_eq_ok_iff.1 hpredicate) (ih .groupEnd .nothing h)
    · cases h

theorem reads_of_readSteps {first : Bool} {steps : Steps}
    (h : readSteps grammar met (fuel + 1) first t = .ok (steps, met', final)) :
    Reads grammar (.steps first) met t (.steps steps) met' final := by
  unfold readSteps at h
  split at h
  rename_i anchored body hanchor
  -- The anchor is read first, and what follows it decides.
  change anchor t = (anchored, body) at hanchor
  split at h
  · split at h
    · cases h
    · rename_i hlast
      cases h
      exact .nodeClose hanchor hlast
  · split at h
    · rename_i start hstart
      obtain ⟨⟨met₁, t₁⟩, hpredicate, h⟩ := bind_eq_ok_iff.1 h
      exact .stepPredicate hanchor hstart (readPredicate_eq_ok_iff.1 hpredicate)
        (ih (.steps first) (.steps _) h)
    · rename_i hstart
      obtain ⟨⟨pattern, met₁, t₁⟩, hpattern, h⟩ := bind_eq_ok_iff.1 h
      obtain ⟨⟨others, met₂, t₂⟩, hothers, h⟩ := bind_eq_ok_iff.1 h
      cases h
      exact .step hanchor hstart (ih .pattern (.pattern _) hpattern)
        (ih (.steps false) (.steps _) hothers)

end Sound

/-- What the readers return can be read. -/
theorem reads_of_runs {fuel : Nat} (h : Runs grammar fuel met t form reading met' final) :
    Reads grammar form met t reading met' final := by
  induction fuel generalizing form met t reading met' final with
  | zero => cases form <;> cases reading <;> cases h
  | succ fuel ih =>
    have hreads : ∀ (form : Form) {met : Met} {t : Text} (reading : Reading) {met' : Met}
        {final : Text}, Runs grammar fuel met t form reading met' final →
          Reads grammar form met t reading met' final := fun _ _ _ _ _ _ => ih
    match form, reading, h with
    | .pattern, .pattern _, h => exact reads_of_readPattern hreads h
    | .alternatives, .alternatives _, h => exact reads_of_readAlternatives hreads h
    | .group, .pattern _, h => exact reads_of_readGroup hreads h
    | .groupEnd, .nothing, h => exact reads_of_readGroupEnd hreads h
    | .steps _, .steps _, h => exact reads_of_readSteps hreads h

section Equations

variable {fuel : Nat} {rest after : Text} {name : String}

/-- Behind a bracket, a name starts the pattern of a node. -/
theorem readPattern_node {test : NodeTest} (hname : readName? (skipSpace rest) = some (name, after))
    (htest : testOfName? grammar name = some test) :
    readPattern grammar met (fuel + 1) ('(' :: rest) = (do
      let (steps, met, final) ← readSteps grammar met fuel true (skipSpace after)
      finish met (.node test steps) final) := by
  simp only [readPattern]
  -- The name does not start with one of the marks of a group.
  split
  · rename_i hbody
    exact absurd (by rw [hbody]; rfl)
      (head?_ne_of_readName? hname (by decide : startsName '(' = false))
  · rename_i hbody
    exact absurd (by rw [hbody]; rfl)
      (head?_ne_of_readName? hname (by decide : startsName '"' = false))
  · rename_i hbody
    exact absurd (by rw [hbody]; rfl)
      (head?_ne_of_readName? hname (by decide : startsName '[' = false))
  · simp only [hname, htest]

/-- Without a bracket, a name in front of a colon is that of a field. -/
theorem readPattern_inField (hstart : t.head? ≠ some '_') (hname : readName? t = some (name, after))
    (hcolon : skipSpace after = ':' :: rest) :
    readPattern grammar met (fuel + 1) t = (do
      let (pattern, met, final) ← readPattern grammar met fuel (skipSpace rest)
      if grammar.knowsField name then finish met (.inField name pattern) final
      else .error (.unknownField, t)) := by
  rw [readPattern.eq_def]
  dsimp only
  split
  · exact absurd rfl (head?_ne_of_readName? hname (by decide))
  · exact absurd rfl (head?_ne_of_readName? hname (by decide))
  · exact absurd rfl (head?_ne_of_readName? hname (by decide))
  · exact absurd rfl hstart
  · simp only [hname, hcolon]

/-- What is read among children once it is known whether an anchor comes first. -/
theorem readSteps_of_anchor {first anchored : Bool} {body : Text} :
    anchor t = (anchored, body) → readSteps grammar met (fuel + 1) first t = (
      match body with
      | ')' :: rest =>
        if anchored ∧ first then .error (.syntaxError, body) else .ok (.done anchored, met, rest)
      | _ =>
        match predicateStart? body with
        | some start => do
          let (met, rest) ← readPredicate met start
          readSteps grammar met fuel first rest
        | none => do
          let (pattern, met, rest) ← readPattern grammar met fuel body
          let (steps, met, final) ← readSteps grammar met fuel false rest
          .ok (.next anchored pattern steps, met, final)) := by
  intro hanchor
  conv =>
    lhs
    unfold readSteps
  split
  rename_i hanchor'
  obtain ⟨rfl, rfl⟩ := Prod.mk.inj (hanchor.symm.trans hanchor')
  rfl

end Equations

/-- The fuel that the reader for a form needs at most. -/
def Form.fuelFor (form : Form) (t : Text) : Nat :=
  match form with
  | .pattern => 3 * t.length + 1
  | _ => 3 * t.length + 2

theorem Form.fuelFor_le {n : Nat} (form : Form) (h : t.length < n) : form.fuelFor t ≤ 3 * n := by
  cases form <;> simp only [Form.fuelFor] <;> omega

/-- What can be read is returned, given fuel for the length of the text. -/
theorem runs_of_reads (h : Reads grammar form met t reading met' final) {fuel : Nat}
    (hfuel : form.fuelFor t ≤ fuel) : Runs grammar fuel met t form reading met' final := by
  -- Fuel for the text is fuel for each part, as every part is read from a shorter text.
  induction h generalizing fuel with
  | @oneOf _ _ _ rest _ _ _ _ _ hcaptures ih =>
    obtain ⟨fuel, rfl, hle⟩ := exists_eq_succ_of_lt hfuel
    have hrest := length_skipSpace_lt (Nat.lt_succ_self rest.length)
    have halternatives := ih (Nat.le_trans (Form.fuelFor_le _ hrest) hle)
    exact bind_eq_ok_iff.2 ⟨_, halternatives, finish_eq_ok_iff.2 hcaptures⟩
  | @inGroup _ _ rest _ _ hstarts _ ih =>
    obtain ⟨fuel, rfl, hle⟩ := exists_eq_succ_of_lt hfuel
    have hrest := length_skipSpace_lt (Nat.lt_succ_self rest.length)
    have hgroup := ih (Nat.le_trans (Form.fuelFor_le _ hrest) hle)
    obtain ⟨c, hhead, hc⟩ := hstarts
    obtain ⟨tail, hbody⟩ := List.head?_eq_some_iff.1 hhead
    simp only [Runs, readPattern, hbody] at hgroup ⊢
    rcases hc with rfl | rfl | rfl <;> exact hgroup
  | @node _ _ _ rest after _ _ _ _ _ _ hname htest _ hcaptures ih =>
    obtain ⟨fuel, rfl, hle⟩ := exists_eq_succ_of_lt hfuel
    have hafter := length_skipSpace_lt (Nat.lt_of_lt_of_le (length_lt_of_readName? hname)
      (Nat.le_succ_of_le (length_skipSpace_le rest)))
    have hsteps := ih (Nat.le_trans (Form.fuelFor_le _ hafter) hle)
    show readPattern _ _ _ _ = _
    rw [readPattern_node hname htest]
    exact bind_eq_ok_iff.2 ⟨_, hsteps, finish_eq_ok_iff.2 hcaptures⟩
  | @token _ _ _ _ _ _ _ htoken hknown hcaptures =>
    obtain ⟨fuel, rfl, -⟩ := exists_eq_succ_of_lt hfuel
    refine bind_eq_ok_iff.2 ⟨_, htoken, ?_⟩
    simp only [hknown, if_true]
    exact finish_eq_ok_iff.2 hcaptures
  | wildcard hcaptures =>
    obtain ⟨fuel, rfl, -⟩ := exists_eq_succ_of_lt hfuel
    exact finish_eq_ok_iff.2 hcaptures
  | @inField _ _ _ t after rest _ _ _ _ _ hstart hname hcolon _ hknown hcaptures ih =>
    obtain ⟨fuel, rfl, hle⟩ := exists_eq_succ_of_lt hfuel
    have hrest := length_skipSpace_lt (length_lt_of_readName? hname)
    rw [hcolon] at hrest
    have hpattern := ih (Nat.le_trans
      (Form.fuelFor_le _ (length_skipSpace_lt (Nat.lt_of_succ_lt hrest))) hle)
    show readPattern _ _ _ _ = _
    rw [readPattern_inField hstart hname hcolon]
    refine bind_eq_ok_iff.2 ⟨_, hpattern, ?_⟩
    simp only [hknown, if_true]
    exact finish_eq_ok_iff.2 hcaptures
  | @last _ _ t _ _ _ ih =>
    obtain ⟨fuel, rfl, hle⟩ := exists_eq_succ_of_lt hfuel
    exact bind_eq_ok_iff.2 ⟨_, ih hle, rfl⟩
  | @more _ _ _ t t₁ _ _ _ hpattern hopen _ ih ih' =>
    obtain ⟨fuel, rfl, hle⟩ := exists_eq_succ_of_lt hfuel
    have hothers := ih' (Nat.le_trans (Form.fuelFor_le _ (length_lt_of_reads hpattern))
      (Nat.le_of_succ_le hle))
    refine bind_eq_ok_iff.2 ⟨_, ih hle, ?_⟩
    dsimp only
    split
    · exact absurd rfl hopen
    · exact bind_eq_ok_iff.2 ⟨_, hothers, rfl⟩
  | groupPredicate hstart hpredicate _ ih =>
    obtain ⟨fuel, rfl, hle⟩ := exists_eq_succ_of_lt hfuel
    have hrest := Nat.lt_trans hpredicate.length_lt (length_lt_of_predicateStart? hstart)
    have hgroup := ih (Nat.le_trans (Form.fuelFor_le _ hrest) (Nat.le_of_succ_le hle))
    simp only [Runs, readGroup, hstart]
    exact bind_eq_ok_iff.2 ⟨_, readPredicate_eq_ok_iff.2 hpredicate, hgroup⟩
  | groupPattern hstart hpattern _ hcaptures ih ih' =>
    obtain ⟨fuel, rfl, hle⟩ := exists_eq_succ_of_lt hfuel
    have hend := ih' (Nat.le_trans (Form.fuelFor_le _ (length_lt_of_reads hpattern))
      (Nat.le_of_succ_le hle))
    simp only [Runs, readGroup, hstart]
    refine bind_eq_ok_iff.2 ⟨_, ih hle, bind_eq_ok_iff.2 ⟨_, hend, ?_⟩⟩
    exact finish_eq_ok_iff.2 hcaptures
  | groupClose =>
    obtain ⟨fuel, rfl, -⟩ := exists_eq_succ_of_lt hfuel
    rfl
  | endPredicate hstart hpredicate _ ih =>
    obtain ⟨fuel, rfl, hle⟩ := exists_eq_succ_of_lt hfuel
    have hrest := Nat.lt_trans hpredicate.length_lt (length_lt_of_predicateStart? hstart)
    have hend := ih (Nat.le_trans (Form.fuelFor_le _ hrest) (Nat.le_of_succ_le hle))
    obtain ⟨rest, rfl, -⟩ := predicateStart?_eq_some_iff.1 hstart
    simp only [Runs, readGroupEnd, hstart]
    exact bind_eq_ok_iff.2 ⟨_, readPredicate_eq_ok_iff.2 hpredicate, hend⟩
  | nodeClose hanchor hlast =>
    obtain ⟨fuel, rfl, -⟩ := exists_eq_succ_of_lt hfuel
    show readSteps _ _ _ _ _ = _
    rw [readSteps_of_anchor hanchor]
    exact if_neg hlast
  | stepPredicate hanchor hstart hpredicate _ ih =>
    obtain ⟨fuel, rfl, hle⟩ := exists_eq_succ_of_lt hfuel
    have hbody := Nat.lt_of_lt_of_le (length_lt_of_predicateStart? hstart)
      (length_le_of_anchor hanchor)
    have hrest := Nat.lt_trans hpredicate.length_lt hbody
    have hsteps := ih (Nat.le_trans (Form.fuelFor_le _ hrest) (Nat.le_of_succ_le hle))
    obtain ⟨tail, rfl, -⟩ := predicateStart?_eq_some_iff.1 hstart
    show readSteps _ _ _ _ _ = _
    rw [readSteps_of_anchor hanchor]
    simp only [hstart]
    exact bind_eq_ok_iff.2 ⟨_, readPredicate_eq_ok_iff.2 hpredicate, hsteps⟩
  | step hanchor hstart hpattern _ ih ih' =>
    obtain ⟨fuel, rfl, hle⟩ := exists_eq_succ_of_lt hfuel
    have hbody := length_le_of_anchor hanchor
    have hread := ih (Nat.le_trans (Nat.succ_le_succ (Nat.mul_le_mul_left 3 hbody)) hle)
    have hrest := Nat.lt_of_lt_of_le (length_lt_of_reads hpattern) hbody
    have hothers := ih' (Nat.le_trans (Form.fuelFor_le _ hrest) (Nat.le_of_succ_le hle))
    show readSteps _ _ _ _ _ = _
    rw [readSteps_of_anchor hanchor]
    split
    · exact absurd rfl (head?_ne_of_reads hpattern (by decide))
    · simp only [hstart]
      exact bind_eq_ok_iff.2 ⟨_, hread, bind_eq_ok_iff.2 ⟨_, hothers, rfl⟩⟩

/-! ### Whole texts -/

theorem readsTop_of_readTop {fuel : Nat} {captures : List String} {query : Query}
    (h : readTop grammar captures fuel t = .ok query) : ReadsTop grammar captures t query := by
  induction fuel generalizing captures t query with
  | zero => cases h
  | succ fuel ih =>
    unfold readTop at h
    split at h
    · cases h
      exact .done
    · split at h
      · obtain ⟨_, -, h⟩ := bind_eq_ok_iff.1 h
        cases h
      · rename_i hstart
        obtain ⟨⟨pattern, met, rest⟩, hpattern, h⟩ := bind_eq_ok_iff.1 h
        obtain ⟨others, hothers, h⟩ := bind_eq_ok_iff.1 h
        cases h
        -- The fuel that the reader starts with is what `Runs` asks for.
        have hruns : Runs grammar (3 * t.length + 3) ⟨captures, []⟩ t .pattern (.pattern pattern)
          met rest := hpattern
        exact .pattern hstart (reads_of_runs hruns) (ih hothers)

theorem readTop_of_readsTop {captures : List String} {query : Query}
    (h : ReadsTop grammar captures t query) {fuel : Nat} (hfuel : t.length < fuel) :
    readTop grammar captures fuel t = .ok query := by
  induction h generalizing fuel with
  | done =>
    obtain ⟨fuel, rfl, -⟩ := exists_eq_succ_of_lt hfuel
    rfl
  | @pattern captures t rest pattern met query hstart hpattern _ ih =>
    obtain ⟨fuel, rfl, hle⟩ := exists_eq_succ_of_lt hfuel
    have hruns : readPattern grammar ⟨captures, []⟩ (3 * t.length + 3) t =
        .ok (pattern, met, rest) := runs_of_reads hpattern (Nat.le_add_right _ 2)
    have hothers := ih (Nat.lt_of_lt_of_le (length_lt_of_reads hpattern) hle)
    unfold readTop
    split
    · cases length_lt_of_reads hpattern
    · simp only [hstart]
      exact bind_eq_ok_iff.2 ⟨_, hruns, bind_eq_ok_iff.2 ⟨_, hothers, rfl⟩⟩

/-- **A text compiles to a query exactly if the query can be read from it.** -/
theorem compile_eq_ok_iff {source : Text} {query : Query} :
    compile grammar source = .ok query ↔ ReadsTop grammar [] (skipSpace source) query := by
  have htop : compile grammar source = .ok query ↔
      readTop grammar [] (source.length + 1) (skipSpace source) = .ok query := by
    unfold compile
    split <;> rename_i hread <;> simp [hread]
  rw [htop]
  exact ⟨readsTop_of_readTop, fun h =>
    readTop_of_readsTop h (Nat.lt_succ_of_le (length_skipSpace_le source))⟩

end Query

end SyntaxEdit
