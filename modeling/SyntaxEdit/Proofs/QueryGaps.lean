/-
White space and comments in query texts.

* `Query.IsGap` — white space and comments, and nothing else;
* `Query.EndsInCode` — a text in which every string and comment is closed;
* `Reads.ofAppend` — what is read in front of white space and comments is read without them too;
* `compile_append_iff` — white space and comments behind a text say nothing.
-/
import SyntaxEdit.Proofs.QueryJoining
import SyntaxEdit.Query.Split

namespace SyntaxEdit

namespace Query

variable {grammar : Grammar} {met met' : Met} {s t u v : Text} {form : Form} {reading : Reading}

/-! ### White space and comments behind a text -/

/-- Where in a query text the character behind some others stands. -/
def contextAfter (context : QueryContext) (t : Text) : QueryContext :=
  t.foldl QueryContext.after context

/-- Whether a text ends outside of strings and comments. -/
def EndsInCode (t : Text) : Prop :=
  contextAfter .code t = .code

/-- Whether a text is nothing but white space and comments. -/
def IsGap (t : Text) : Prop :=
  skipSpace t = []

theorem skipSpaceFrom_of_isGap (h : IsGap s) : skipSpaceFrom true s = [] := by
  unfold IsGap skipSpace at h
  -- In a comment even less can stop the reader, up to the end of the line.
  induction s with
  | nil => rfl
  | cons c s ih =>
    by_cases hspace : isSpace c = true
    · rw [skipSpaceFrom, if_neg Bool.false_ne_true, if_pos hspace] at h
      rw [skipSpaceFrom, if_pos rfl]
      by_cases hbreak : c = '\n'
      · simpa [hbreak] using h
      · simpa [hbreak] using ih h
    · by_cases hcomment : c = ';'
      · subst hcomment
        exact h
      · rw [skipSpaceFrom, if_neg Bool.false_ne_true, if_neg hspace, if_neg hcomment] at h
        cases h

theorem IsGap.trails (h : IsGap s) : Trails s := by
  refine ⟨fun c hc => ?_, ?_, ?_⟩
  · obtain ⟨s, rfl⟩ := List.head?_eq_some_iff.1 hc
    unfold IsGap skipSpace at h
    by_cases hspace : isSpace c = true
    · exact .inl hspace
    · by_cases hcomment : c = ';'
      · exact .inr hcomment
      · rw [skipSpaceFrom, if_neg Bool.false_ne_true, if_neg hspace, if_neg hcomment] at h
        cases h
  · rw [skipSpaceFrom_of_isGap h, h]
  · rw [h]
    simp

theorem exists_cons_of_followedBy (h : IsGap s) {c : Char} {u : Text}
    (hu : c :: u = followedBy t s) : ∃ rest, t = c :: rest ∧ u = rest ++ s := by
  cases t with
  | nil =>
    rw [followedBy_nil, h] at hu
    cases hu
  | cons d rest =>
    rw [followedBy_cons] at hu
    obtain ⟨rfl, rfl⟩ := List.cons.inj hu
    exact ⟨rest, rfl, rfl⟩

theorem contextAfter_skipSpaceFrom {inComment : Bool}
    (h : contextAfter (if inComment then .comment else .code) t = .code) :
    EndsInCode (skipSpaceFrom inComment t) := by
  fun_induction skipSpaceFrom inComment t with
  | case1 => rfl
  | case2 c t ih =>
    refine ih ?_
    by_cases hbreak : c = '\n'
    · subst hbreak
      exact h
    · simpa [contextAfter, QueryContext.after, hbreak] using h
  | case3 inComment c t hcode hspace ih =>
    refine ih ?_
    -- A character that is skipped opens neither a string nor a comment.
    have hquote : c ≠ '"' := by
      rintro rfl
      cases hspace
    have hcomment : c ≠ ';' := by
      rintro rfl
      cases hspace
    simpa [contextAfter, QueryContext.after, hcode, hquote, hcomment] using h
  | case4 inComment t hcode hspace ih =>
    rw [if_neg hcode] at h
    exact ih h
  | case5 inComment c t hcode =>
    rw [if_neg hcode] at h
    exact h

theorem EndsInCode.skipSpace (h : EndsInCode t) : EndsInCode (skipSpace t) :=
  contextAfter_skipSpaceFrom h

theorem EndsInCode.dropName (h : EndsInCode t) : EndsInCode (t.dropWhile inName) := by
  induction t with
  | nil => exact h
  | cons c t ih =>
    by_cases hc : inName c = true
    · rw [List.dropWhile_cons_of_pos hc]
      -- No character of a name opens a string or a comment.
      have hquote : c ≠ '"' := by
        rintro rfl
        revert hc
        decide
      have hcomment : c ≠ ';' := by
        rintro rfl
        revert hc
        decide
      exact ih (by simpa [EndsInCode, contextAfter, QueryContext.after, hquote, hcomment] using h)
    · rwa [List.dropWhile_cons_of_neg hc]

theorem exists_readName?_of_append (h : IsGap s) (hcode : EndsInCode t) {name : String} {u : Text}
    (hname : readName? (t ++ s) = some (name, u)) :
    ∃ rest, readName? t = some (name, rest) ∧ u = rest ++ s ∧ EndsInCode rest := by
  cases t with
  | nil =>
    obtain ⟨⟨c, hc, hstarts⟩, -⟩ := readName?_eq_some_iff.1 hname
    have hnot := not_inName_of_head? h.trails c hc
    rw [inName, hstarts] at hnot
    cases hnot
  | cons c t =>
    rw [readName?_append h.trails (List.cons_ne_nil c t)] at hname
    obtain ⟨⟨name', rest⟩, hread, heq⟩ := Option.map_eq_some_iff.1 hname
    obtain ⟨rfl, rfl⟩ := Prod.mk.inj heq
    obtain ⟨-, -, hrest⟩ := readName?_eq_some_iff.1 hread
    exact ⟨rest, hread, rfl, hrest ▸ hcode.dropName⟩

theorem exists_readName?_of_followedBy (h : IsGap s) (hcode : EndsInCode t) {name : String}
    {u v : Text} (hu : u = followedBy t s) (hname : readName? u = some (name, v)) :
    ∃ rest, readName? t = some (name, rest) ∧ v = rest ++ s ∧ EndsInCode rest := by
  have ht : t ≠ [] := by
    rintro rfl
    rw [hu, followedBy_nil, h] at hname
    cases hname
  rw [hu, followedBy_of_ne_nil ht] at hname
  exact exists_readName?_of_append h hcode hname

theorem exists_readStringBody?_of_append {value u : Text}
    (hcode : contextAfter .string t = .code) (h : readStringBody? (t ++ s) = some (value, u)) :
    ∃ rest, readStringBody? t = some (value, rest) ∧ u = rest ++ s ∧ EndsInCode rest := by
  fun_induction readStringBody? t generalizing value with
  | case1 => cases hcode
  | case2 rest =>
    cases h
    exact ⟨rest, rfl, rfl, hcode⟩
  | case3 => cases h
  | case4 c t ih =>
    obtain ⟨⟨value', u'⟩, hbody, heq⟩ := Option.map_eq_some_iff.1 h
    cases heq
    obtain ⟨rest, hread, rfl, hrest⟩ := ih hcode hbody
    exact ⟨rest, by simp [hread], rfl, hrest⟩
  | case5 c t hquote hbreak hescape ih =>
    -- A backslash at the end of `t` would leave the string open.
    have hslash : c ≠ '\\' := by
      rintro rfl
      cases t with
      | nil => cases hcode
      | cons d t => exact hescape d t rfl rfl
    have hafter : QueryContext.after .string c = .string := by
      simp only [QueryContext.after, if_neg hslash, if_neg fun heq => hquote heq]
    have hbody : contextAfter .string t = .code := by
      rwa [contextAfter, List.foldl_cons, hafter] at hcode
    rw [List.cons_append, readStringBody?.eq_5 _ _ hquote hbreak fun d u heq _ => hslash heq] at h
    obtain ⟨⟨value', u'⟩, hread, heq⟩ := Option.map_eq_some_iff.1 h
    cases heq
    obtain ⟨rest, hrest, rfl, hends⟩ := ih hbody hread
    exact ⟨rest, by simp [hrest], rfl, hends⟩

theorem exists_readString_of_append (h : IsGap s) {value u v : Text} (hcode : EndsInCode t)
    (hu : u = followedBy t s) (hread : readString u = .ok (value, v)) :
    ∃ rest, readString t = .ok (value, rest) ∧ v = rest ++ s ∧ EndsInCode rest := by
  obtain ⟨body, rfl, hbody⟩ := readString_eq_ok_iff.1 hread
  obtain ⟨body, rfl, rfl⟩ := exists_cons_of_followedBy h hu
  obtain ⟨rest, hrest, rfl, hends⟩ := exists_readStringBody?_of_append hcode hbody
  exact ⟨rest, readString_eq_ok_iff.2 ⟨body, rfl, hrest⟩, rfl, hends⟩

theorem EndsInCode.of_cons {c : Char} (h : EndsInCode (c :: t))
    (hc : QueryContext.after .code c = .code) : EndsInCode t := by
  rwa [EndsInCode, contextAfter, List.foldl_cons, hc] at h

theorem ReadsArguments.ofAppend (hs : IsGap s) {arguments : List Argument}
    (h : ReadsArguments met u arguments v) (hu : u = Query.followedBy t s) (hcode : EndsInCode t) :
    ∃ final, ReadsArguments met t arguments final ∧ v = final ++ s ∧ EndsInCode final := by
  induction h generalizing t with
  | close =>
    obtain ⟨rest, rfl, rfl⟩ := exists_cons_of_followedBy hs hu
    exact ⟨rest, .close, rfl, hcode.of_cons rfl⟩
  | capture hname hknown _ ih =>
    obtain ⟨rest, rfl, rfl⟩ := exists_cons_of_followedBy hs hu
    obtain ⟨after, hname', rfl, hafter⟩ :=
      exists_readName?_of_append hs (hcode.of_cons rfl) hname
    obtain ⟨final, harguments, rfl, hfinal⟩ :=
      ih (skipSpace_append hs.trails after) hafter.skipSpace
    exact ⟨final, .capture hname' hknown harguments, rfl, hfinal⟩
  | string hvalue _ ih =>
    obtain ⟨after, hvalue', rfl, hafter⟩ := exists_readString_of_append hs hcode hu hvalue
    obtain ⟨final, harguments, rfl, hfinal⟩ :=
      ih (skipSpace_append hs.trails after) hafter.skipSpace
    exact ⟨final, .string hvalue' harguments, rfl, hfinal⟩
  | name hname _ ih =>
    obtain ⟨after, hname', rfl, hafter⟩ := exists_readName?_of_followedBy hs hcode hu hname
    obtain ⟨final, harguments, rfl, hfinal⟩ :=
      ih (skipSpace_append hs.trails after) hafter.skipSpace
    exact ⟨final, .name hname' harguments, rfl, hfinal⟩

theorem ReadsPredicate.ofAppend (hs : IsGap s) (h : ReadsPredicate met (t ++ s) met' v)
    (hcode : EndsInCode t) :
    ∃ final, ReadsPredicate met t met' final ∧ v = Query.followedBy final s ∧ EndsInCode final := by
  obtain ⟨hname, hmark, harguments⟩ := h
  obtain ⟨after, hname', hu, hafter⟩ := exists_readName?_of_append hs hcode hname
  cases after with
  | nil =>
    -- No mark of a predicate starts white space or a comment.
    rcases hs.trails.start _ (by rw [← List.nil_append s, ← hu]; rfl) with hspace | hcomment
    · rcases hmark with rfl | rfl <;> cases hspace
    · rcases hmark with rfl | rfl <;> cases hcomment
  | cons mark after =>
    obtain ⟨rfl, rfl⟩ := List.cons.inj hu
    have hends : EndsInCode after := hafter.of_cons (by rcases hmark with rfl | rfl <;> rfl)
    obtain ⟨final, harguments', rfl, hfinal⟩ :=
      harguments.ofAppend hs (skipSpace_append hs.trails after) hends.skipSpace
    exact ⟨_, .intro hname' hmark harguments', skipSpace_append hs.trails final, hfinal.skipSpace⟩

theorem ReadsCaptures.ofAppend (hs : IsGap s) {pattern captured : Pattern}
    (h : ReadsCaptures met pattern u captured met' v) (hu : u = Query.followedBy t s)
    (hcode : EndsInCode t) :
    ∃ final, ReadsCaptures met pattern t captured met' final ∧ v = Query.followedBy final s ∧
      EndsInCode final := by
  induction h generalizing t with
  | done hmark =>
    refine ⟨t, .done fun hhead => hmark ?_, hu, hcode⟩
    obtain ⟨rest, rfl⟩ := List.head?_eq_some_iff.1 hhead
    rw [hu]
    rfl
  | capture hname _ ih =>
    obtain ⟨rest, rfl, rfl⟩ := exists_cons_of_followedBy hs hu
    obtain ⟨after, hname', rfl, hafter⟩ := exists_readName?_of_append hs (hcode.of_cons rfl) hname
    obtain ⟨final, hcaptures, rfl, hfinal⟩ := ih (skipSpace_append hs.trails after) hafter.skipSpace
    exact ⟨final, .capture hname' hcaptures, rfl, hfinal⟩

theorem head?_followedBy (hs : IsGap s) : (followedBy t s).head? = t.head? := by
  cases t with
  | nil => rw [followedBy_nil, hs]
  | cons c t => rfl

theorem predicateStart?_followedBy (hs : IsGap s) :
    predicateStart? (followedBy t s) = (predicateStart? t).map (· ++ s) := by
  cases t with
  | nil =>
    rw [followedBy_nil, hs]
    rfl
  | cons c t => exact predicateStart?_append hs.trails (List.cons_ne_nil c t)

theorem EndsInCode.predicateStart? (h : EndsInCode t) {start : Text}
    (hstart : predicateStart? t = some start) : EndsInCode start := by
  obtain ⟨rest, rfl, hhash⟩ := predicateStart?_eq_some_iff.1 hstart
  have hends := (h.of_cons rfl).skipSpace
  rw [hhash] at hends
  exact hends.of_cons rfl

theorem exists_predicateStart?_of_append (hs : IsGap s) {start : Text} (hu : u = followedBy t s)
    (hcode : EndsInCode t) (hstart : predicateStart? u = some start) :
    ∃ start', predicateStart? t = some start' ∧ start = start' ++ s ∧ EndsInCode start' := by
  rw [hu, predicateStart?_followedBy hs] at hstart
  obtain ⟨start', hstart', rfl⟩ := Option.map_eq_some_iff.1 hstart
  exact ⟨start', hstart', rfl, hcode.predicateStart? hstart'⟩

theorem predicateStart?_eq_none_of_append (hs : IsGap s) (hu : u = followedBy t s)
    (hstart : predicateStart? u = none) : predicateStart? t = none := by
  rw [hu, predicateStart?_followedBy hs] at hstart
  exact Option.map_eq_none_iff.1 hstart

theorem exists_anchor_of_append (hs : IsGap s) {anchored : Bool} {body : Text}
    (hu : u = followedBy t s) (hcode : EndsInCode t) (hanchor : anchor u = (anchored, body)) :
    ∃ body', anchor t = (anchored, body') ∧ body = followedBy body' s ∧ EndsInCode body' := by
  have hends : EndsInCode (anchor t).2 := by
    unfold anchor
    split
    · exact (hcode.of_cons rfl).skipSpace
    · exact hcode
  have hboth : anchor (followedBy t s) = ((anchor t).1, followedBy (anchor t).2 s) := by
    cases t with
    | nil =>
      rw [followedBy_nil, hs]
      show (false, []) = (false, skipSpace s)
      rw [hs]
    | cons c t => exact anchor_append hs.trails (List.cons_ne_nil c t) rfl
  rw [hu, hboth] at hanchor
  obtain ⟨rfl, rfl⟩ := Prod.mk.inj hanchor
  exact ⟨_, rfl, rfl, hends⟩

/-- **What is read in front of white space and comments is read without them too.** -/
theorem Reads.ofAppend (hs : IsGap s) (h : Reads grammar form met u reading met' v)
    (hu : u = Query.followedBy t s) (hcode : EndsInCode t) :
    ∃ final, Reads grammar form met t reading met' final ∧ v = form.restWith final s ∧
      EndsInCode final := by
  have hskip := skipSpace_append hs.trails
  -- One case for each form. The reading before the gap ends in code, so nothing that is read next
  -- can start in the gap.
  induction h generalizing t with
  | oneOf _ hcaptures ih =>
    obtain ⟨rest, rfl, rfl⟩ := exists_cons_of_followedBy hs hu
    obtain ⟨t₁, halternatives, rfl, hends⟩ := ih (hskip rest) (hcode.of_cons rfl).skipSpace
    obtain ⟨final, hcaptures', rfl, hfinal⟩ := hcaptures.ofAppend hs (hskip t₁) hends.skipSpace
    exact ⟨final, .oneOf halternatives hcaptures', rfl, hfinal⟩
  | inGroup hstarts _ ih =>
    obtain ⟨rest, rfl, rfl⟩ := exists_cons_of_followedBy hs hu
    obtain ⟨final, hgroup, rfl, hfinal⟩ := ih (hskip rest) (hcode.of_cons rfl).skipSpace
    rw [StartsGroup, hskip, head?_followedBy hs] at hstarts
    exact ⟨final, .inGroup hstarts hgroup, rfl, hfinal⟩
  | node hname htest _ hcaptures ih =>
    obtain ⟨rest, rfl, rfl⟩ := exists_cons_of_followedBy hs hu
    obtain ⟨after, hname', rfl, hafter⟩ :=
      exists_readName?_of_followedBy hs (hcode.of_cons rfl).skipSpace (hskip rest) hname
    obtain ⟨t₁, hsteps, rfl, hends⟩ := ih (hskip after) hafter.skipSpace
    obtain ⟨final, hcaptures', rfl, hfinal⟩ := hcaptures.ofAppend hs (hskip t₁) hends.skipSpace
    exact ⟨final, .node hname' htest hsteps hcaptures', rfl, hfinal⟩
  | token htoken hknown hcaptures =>
    obtain ⟨after, htoken', rfl, hafter⟩ := exists_readString_of_append hs hcode hu htoken
    obtain ⟨rest, rfl, -⟩ := exists_cons_of_followedBy hs hu
    obtain ⟨final, hcaptures', rfl, hfinal⟩ := hcaptures.ofAppend hs (hskip after) hafter.skipSpace
    exact ⟨final, .token htoken' hknown hcaptures', rfl, hfinal⟩
  | wildcard hcaptures =>
    obtain ⟨rest, rfl, rfl⟩ := exists_cons_of_followedBy hs hu
    obtain ⟨final, hcaptures', rfl, hfinal⟩ :=
      hcaptures.ofAppend hs (hskip rest) (hcode.of_cons rfl).skipSpace
    exact ⟨final, .wildcard hcaptures', rfl, hfinal⟩
  | inField hstart hname hcolon _ hknown hcaptures ih =>
    obtain ⟨after, hname', rfl, hafter⟩ := exists_readName?_of_followedBy hs hcode hu hname
    rw [hskip] at hcolon
    obtain ⟨rest, hcolon', rfl⟩ := exists_cons_of_followedBy hs hcolon.symm
    have hrest := hafter.skipSpace
    rw [hcolon'] at hrest
    obtain ⟨t₁, hpattern, rfl, hends⟩ := ih (hskip rest) (hrest.of_cons rfl).skipSpace
    obtain ⟨final, hcaptures', rfl, hfinal⟩ :=
      hcaptures.ofAppend hs (skipSpace_followedBy hs.trails t₁) hends.skipSpace
    rw [hu, head?_followedBy hs] at hstart
    exact ⟨final, .inField hstart hname' hcolon' hpattern hknown hcaptures', rfl, hfinal⟩
  | last _ ih =>
    obtain ⟨t₁, hpattern, hclose, hends⟩ := ih hu hcode
    obtain ⟨final, rfl, rfl⟩ := exists_cons_of_followedBy hs hclose
    exact ⟨final, .last hpattern, rfl, hends.of_cons rfl⟩
  | more _ hopen _ ih ih' =>
    obtain ⟨t₁, hpattern, rfl, hends⟩ := ih hu hcode
    obtain ⟨final, hothers, rfl, hfinal⟩ := ih' rfl hends
    rw [Form.restWith, head?_followedBy hs] at hopen
    exact ⟨final, .more hpattern hopen hothers, rfl, hfinal⟩
  | groupPredicate hstart hpredicate _ ih =>
    obtain ⟨start, hstart', rfl, hends⟩ := exists_predicateStart?_of_append hs hu hcode hstart
    obtain ⟨t₁, hpredicate', rfl, hends⟩ := hpredicate.ofAppend hs hends
    obtain ⟨final, hgroup, rfl, hfinal⟩ := ih rfl hends
    exact ⟨final, .groupPredicate hstart' hpredicate' hgroup, rfl, hfinal⟩
  | groupPattern hstart _ _ hcaptures ih ih' =>
    obtain ⟨t₁, hpattern, rfl, hends⟩ := ih hu hcode
    obtain ⟨t₂, hend, rfl, hends⟩ := ih' rfl hends
    obtain ⟨final, hcaptures', rfl, hfinal⟩ := hcaptures.ofAppend hs (hskip t₂) hends.skipSpace
    have hnone := predicateStart?_eq_none_of_append hs hu hstart
    exact ⟨final, .groupPattern hnone hpattern hend hcaptures', rfl, hfinal⟩
  | groupClose =>
    obtain ⟨rest, rfl, rfl⟩ := exists_cons_of_followedBy hs hu
    exact ⟨rest, .groupClose, rfl, hcode.of_cons rfl⟩
  | endPredicate hstart hpredicate _ ih =>
    obtain ⟨start, hstart', rfl, hends⟩ := exists_predicateStart?_of_append hs hu hcode hstart
    obtain ⟨t₁, hpredicate', rfl, hends⟩ := hpredicate.ofAppend hs hends
    obtain ⟨final, hend, rfl, hfinal⟩ := ih rfl hends
    exact ⟨final, .endPredicate hstart' hpredicate' hend, rfl, hfinal⟩
  | nodeClose hanchor hlast =>
    obtain ⟨body, hanchor', hbody, hends⟩ := exists_anchor_of_append hs hu hcode hanchor
    obtain ⟨rest, rfl, rfl⟩ := exists_cons_of_followedBy hs hbody
    exact ⟨rest, .nodeClose hanchor' hlast, rfl, hends.of_cons rfl⟩
  | stepPredicate hanchor hstart hpredicate _ ih =>
    obtain ⟨body, hanchor', hbody, hends⟩ := exists_anchor_of_append hs hu hcode hanchor
    obtain ⟨start, hstart', rfl, hends⟩ := exists_predicateStart?_of_append hs hbody hends hstart
    obtain ⟨t₁, hpredicate', rfl, hends⟩ := hpredicate.ofAppend hs hends
    obtain ⟨final, hsteps, rfl, hfinal⟩ := ih rfl hends
    exact ⟨final, .stepPredicate hanchor' hstart' hpredicate' hsteps, rfl, hfinal⟩
  | step hanchor hstart _ _ ih ih' =>
    obtain ⟨body, hanchor', hbody, hends⟩ := exists_anchor_of_append hs hu hcode hanchor
    obtain ⟨t₁, hpattern, rfl, hends'⟩ := ih hbody hends
    obtain ⟨final, hsteps, rfl, hfinal⟩ := ih' rfl hends'
    have hnone := predicateStart?_eq_none_of_append hs hbody hstart
    exact ⟨final, .step hanchor' hnone hpattern hsteps, rfl, hfinal⟩

theorem ReadsTop.ofAppend (hs : IsGap s) {captures : List String} {query : Query}
    (h : ReadsTop grammar captures u query) (hu : u = Query.followedBy t s) (hcode : EndsInCode t) :
    ReadsTop grammar captures t query := by
  induction h generalizing t with
  | done =>
    cases t with
    | nil => exact .done
    | cons c t => cases hu
  | pattern hstart hpattern _ ih =>
    obtain ⟨rest, hpattern', rfl, hends⟩ := hpattern.ofAppend hs hu hcode
    exact .pattern (predicateStart?_eq_none_of_append hs hu hstart) hpattern' (ih rfl hends)

/-- **White space and comments behind a text say nothing.** -/
theorem compile_append_iff (hs : IsGap s) (hcode : EndsInCode t) {query : Query} :
    compile grammar (t ++ s) = .ok query ↔ compile grammar t = .ok query := by
  rw [compile_eq_ok_iff, compile_eq_ok_iff, skipSpace_append hs.trails]
  refine ⟨fun h => h.ofAppend hs rfl hcode.skipSpace, fun h => ?_⟩
  have hnext : ReadsTop grammar query.captureNames (skipSpace s) ⟨[], query.captureNames⟩ := by
    rw [hs]
    exact .done
  have happend := h.append hs.trails hnext
  rwa [List.append_nil] at happend

end Query

end SyntaxEdit
