/-
Query texts one behind the other.

What a text denotes does not change with another text behind it, as long as that one starts with
white space or a comment and does not go on with a capture or the mark of a predicate.

* `Query.Trails` — texts that can stand behind others;
* `Query.mergeNames`, `Met.behind` — the captures of one text after those of another;
* `Reads.behind` — what is read in front of such a text, and after other captures;
* `compile_joinWith` — several texts that compile, joined by blank lines, compile to all of their
  patterns.
-/
import SyntaxEdit.Proofs.QueryReaders

namespace SyntaxEdit

namespace Query

variable {grammar : Grammar} {met met' : Met} {s t rest final : Text}

/-! ### Texts behind others -/

/-- A text that can stand behind others without joining their last token or changing their last
pattern. -/
structure Trails (s : Text) : Prop where
  start : ∀ c ∈ s.head?, isSpace c = true ∨ c = ';'
  /-- It makes no difference whether a comment runs on into the text. -/
  comment : skipSpaceFrom true s = skipSpace s
  mark : ∀ c ∈ (skipSpace s).head?, c ≠ '@' ∧ c ≠ '#'

/-- A text with another one behind it, without the white space in front of that one if nothing is
left of the first. -/
def followedBy (t s : Text) : Text :=
  if t = [] then skipSpace s else t ++ s

@[simp] theorem followedBy_nil (s : Text) : followedBy [] s = skipSpace s := rfl

theorem followedBy_of_ne_nil (h : t ≠ []) : followedBy t s = t ++ s := if_neg h

@[simp] theorem followedBy_cons (c : Char) (t s : Text) :
    followedBy (c :: t) s = c :: (t ++ s) := rfl

theorem not_inName_of_head? (hs : Trails s) : ∀ c ∈ s.head?, inName c = false := by
  intro c hc
  rcases hs.start c hc with h | rfl
  · simp only [isSpace, Bool.or_eq_true, decide_eq_true_eq] at h
    rcases h with ((((rfl | rfl) | rfl) | rfl) | rfl) | rfl <;> decide
  · decide

theorem skipSpaceFrom_append (hs : Trails s) (inComment : Bool) (t : Text) :
    skipSpaceFrom inComment (t ++ s) = followedBy (skipSpaceFrom inComment t) s := by
  fun_induction skipSpaceFrom inComment t with
  | case1 inComment =>
    cases inComment with
    | false => rfl
    | true => exact hs.comment
  | case2 _ _ ih => exact ih
  | case3 _ _ _ hcode hspace ih =>
    rw [List.cons_append, skipSpaceFrom, if_neg hcode, if_pos hspace]
    exact ih
  | case4 _ _ hcode hspace ih =>
    rw [List.cons_append, skipSpaceFrom, if_neg hcode, if_neg hspace, if_pos rfl]
    exact ih
  | case5 _ _ _ hcode hspace hcomment =>
    rw [List.cons_append, skipSpaceFrom, if_neg hcode, if_neg hspace, if_neg hcomment,
      followedBy_cons]

theorem skipSpace_append (hs : Trails s) (t : Text) :
    skipSpace (t ++ s) = followedBy (skipSpace t) s :=
  skipSpaceFrom_append hs false t

theorem skipSpace_skipSpaceFrom (inComment : Bool) (t : Text) :
    skipSpace (skipSpaceFrom inComment t) = skipSpaceFrom inComment t := by
  fun_induction skipSpaceFrom inComment t with
  | case1 => rfl
  | case2 _ _ ih => exact ih
  | case3 _ _ _ _ _ ih => exact ih
  | case4 _ _ _ _ ih => exact ih
  | case5 _ c t _ hspace hcomment =>
    rw [skipSpace, skipSpaceFrom, if_neg Bool.false_ne_true, if_neg hspace, if_neg hcomment]

theorem skipSpace_followedBy (hs : Trails s) (t : Text) :
    skipSpace (followedBy t s) = followedBy (skipSpace t) s := by
  cases t with
  | nil => exact skipSpace_skipSpaceFrom false s
  | cons c t => exact skipSpace_append hs (c :: t)

/-- Names end where they ended before. -/
theorem readName?_append (hs : Trails s) (ht : t ≠ []) :
    readName? (t ++ s) = (readName? t).map fun (name, rest) => (name, rest ++ s) := by
  -- A name ends where `s` starts, as none of its characters can stand there.
  have hname : ∀ t : Text, (t ++ s).takeWhile inName = t.takeWhile inName ∧
      (t ++ s).dropWhile inName = t.dropWhile inName ++ s := by
    intro t
    induction t with
    | nil =>
      cases s with
      | nil => exact ⟨rfl, rfl⟩
      | cons c s =>
        have hc := not_inName_of_head? hs c rfl
        simp [hc]
    | cons c t ih =>
      by_cases hc : inName c = true
      · simp [hc, ih]
      · simp [hc]
  obtain ⟨c, t, rfl⟩ := List.exists_cons_of_ne_nil ht
  by_cases hc : startsName c = true
  · obtain ⟨htaken, hdropped⟩ := hname (c :: t)
    rw [List.cons_append] at htaken hdropped
    simp only [List.cons_append, readName?, hc, if_true, Option.map_some, htaken, hdropped]
  · simp [readName?, hc]

theorem readStringBody?_append {value : Text} (h : readStringBody? t = some (value, rest)) :
    readStringBody? (t ++ s) = some (value, rest ++ s) := by
  fun_induction readStringBody? t generalizing value with
  | case1 => cases h
  | case2 =>
    cases h
    rfl
  | case3 => cases h
  | case4 c t ih =>
    obtain ⟨⟨value', rest'⟩, hbody, heq⟩ := Option.map_eq_some_iff.1 h
    cases heq
    simp [readStringBody?, ih hbody]
  | case5 c t hquote hbreak hescape ih =>
    obtain ⟨⟨value', rest'⟩, hbody, heq⟩ := Option.map_eq_some_iff.1 h
    cases heq
    -- The equation for an ordinary character asks that it starts no escape, here with the text `s`.
    rw [List.cons_append, readStringBody?.eq_5 _ _ hquote hbreak]
    · rw [ih hbody]
      rfl
    · intro d u hc hu
      cases t with
      | nil => cases hbody
      | cons d t => exact hescape d t hc rfl

theorem readString_append {value : Text} (h : readString t = .ok (value, rest)) :
    readString (t ++ s) = .ok (value, rest ++ s) := by
  obtain ⟨body, rfl, hbody⟩ := readString_eq_ok_iff.1 h
  exact readString_eq_ok_iff.2 ⟨body ++ s, rfl, readStringBody?_append hbody⟩

/-- Predicates start where they started before. -/
theorem predicateStart?_append (hs : Trails s) (ht : t ≠ []) :
    predicateStart? (t ++ s) = (predicateStart? t).map (· ++ s) := by
  obtain ⟨c, t, rfl⟩ := List.exists_cons_of_ne_nil ht
  by_cases hc : c = '('
  · subst hc
    simp only [List.cons_append, predicateStart?, skipSpace_append hs]
    cases hskip : skipSpace t with
    | nil =>
      rw [followedBy_nil]
      split
      · rename_i after hafter
        -- `s` does not start with the mark of a predicate.
        exact absurd rfl (hs.mark '#' (by rw [hafter]; rfl)).2
      · rfl
    | cons d t =>
      rw [followedBy_cons]
      by_cases hd : d = '#'
      · subst hd
        rfl
      · simp [hd]
  · simp [predicateStart?, hc]

theorem anchor_append (hs : Trails s) (ht : t ≠ []) {anchored : Bool} {body : Text}
    (h : anchor t = (anchored, body)) : anchor (t ++ s) = (anchored, followedBy body s) := by
  unfold anchor at h
  split at h
  · cases h
    rw [← skipSpace_append hs]
    rfl
  · rename_i hdot
    cases h
    rw [followedBy_of_ne_nil ht]
    unfold anchor
    split
    · rename_i rest heq
      obtain ⟨c, t, rfl⟩ := List.exists_cons_of_ne_nil ht
      obtain ⟨rfl, -⟩ := List.cons.inj heq
      exact absurd rfl (hdot t)
    · rfl

/-! ### Captures met before -/

/-- Some names, and after them those of others that are not among them. -/
def mergeNames (names others : List String) : List String :=
  names ++ others.filter fun name => !names.contains name

/-- What has been met, with other captures before. -/
def Met.behind (names : List String) (met : Met) : Met :=
  { met with captures := mergeNames names met.captures }

@[simp] theorem predicates_behind (names : List String) (met : Met) :
    (met.behind names).predicates = met.predicates := rfl

theorem mem_mergeNames_iff {names others : List String} {name : String} :
    name ∈ mergeNames names others ↔ name ∈ names ∨ name ∈ others := by
  simp only [mergeNames, List.mem_append, List.mem_filter, Bool.not_eq_true', List.contains_eq_mem,
    decide_eq_false_iff_not]
  constructor
  · rintro (h | ⟨h, -⟩)
    · exact .inl h
    · exact .inr h
  · rintro (h | h)
    · exact .inl h
    · by_cases hname : name ∈ names
      · exact .inl hname
      · exact .inr ⟨h, hname⟩

@[simp] theorem mergeNames_nil_left (names : List String) : mergeNames [] names = names := by
  simp [mergeNames]

@[simp] theorem mergeNames_nil_right (names : List String) : mergeNames names [] = names := by
  simp [mergeNames]

theorem behind_nil (met : Met) : met.behind [] = met := by
  simp [Met.behind]

theorem withCapture_behind (names : List String) (met : Met) (name : String) :
    (met.behind names).withCapture name = (met.withCapture name).behind names := by
  simp only [Met.withCapture, Met.behind, List.contains_eq_mem, decide_eq_true_eq,
    mem_mergeNames_iff]
  by_cases hmet : name ∈ met.captures
  · simp [hmet]
  · by_cases hname : name ∈ names
    · simp [hmet, hname, mergeNames]
    · simp [hmet, hname, mergeNames]

/-! ### Reading in front of other text -/

theorem ne_nil_of_length_lt {s : Text} (h : s.length < t.length) : t ≠ [] :=
  List.ne_nil_of_length_pos (Nat.zero_lt_of_lt h)

theorem skipSpace_append_of_length_lt (hs : Trails s) {u : Text}
    (h : u.length < (skipSpace t).length) : skipSpace (t ++ s) = skipSpace t ++ s := by
  rw [skipSpace_append hs, followedBy_of_ne_nil (ne_nil_of_length_lt h)]

theorem readName?_append_of_some (hs : Trails s) {name : String}
    (h : readName? t = some (name, rest)) : readName? (t ++ s) = some (name, rest ++ s) := by
  rw [readName?_append hs (ne_nil_of_length_lt (length_lt_of_readName? h)), h]
  rfl

theorem predicateStart?_append_of_some (hs : Trails s) {start : Text}
    (h : predicateStart? t = some start) : predicateStart? (t ++ s) = some (start ++ s) := by
  rw [predicateStart?_append hs (ne_nil_of_length_lt (length_lt_of_predicateStart? h)), h]
  rfl

theorem ReadsArguments.behind (hs : Trails s) (names : List String) {arguments : List Argument}
    (h : ReadsArguments met t arguments final) :
    ReadsArguments (met.behind names) (t ++ s) arguments (final ++ s) := by
  induction h with
  | close => exact .close
  | capture hname hknown harguments ih =>
    refine .capture (readName?_append_of_some hs hname) ?_ ?_
    · rw [List.contains_eq_mem, decide_eq_true_eq] at hknown ⊢
      exact mem_mergeNames_iff.2 (.inr hknown)
    · rwa [skipSpace_append_of_length_lt hs harguments.length_lt]
  | string hvalue harguments ih =>
    refine .string (readString_append hvalue) ?_
    rwa [skipSpace_append_of_length_lt hs harguments.length_lt]
  | name hname harguments ih =>
    refine .name (readName?_append_of_some hs hname) ?_
    rwa [skipSpace_append_of_length_lt hs harguments.length_lt]

theorem ReadsPredicate.behind (hs : Trails s) (names : List String)
    (h : ReadsPredicate met t met' final) :
    ReadsPredicate (met.behind names) (t ++ s) (met'.behind names) (followedBy final s) := by
  obtain ⟨hname, hmark, harguments⟩ := h
  have hread := harguments.behind hs names
  rw [← skipSpace_append_of_length_lt hs harguments.length_lt] at hread
  rw [← skipSpace_append hs]
  exact .intro (readName?_append_of_some hs hname) hmark hread

theorem ReadsCaptures.behind (hs : Trails s) (names : List String) {pattern captured : Pattern}
    (h : ReadsCaptures met pattern t captured met' final) :
    ReadsCaptures (met.behind names) pattern (followedBy t s) captured (met'.behind names)
      (followedBy final s) := by
  induction h with
  | @done met pattern t hmark =>
    refine .done ?_
    cases t with
    | nil => exact fun hhead => (hs.mark '@' hhead).1 rfl
    | cons c t => exact hmark
  | capture hname _ ih =>
    refine .capture (readName?_append_of_some hs hname) ?_
    rwa [skipSpace_append hs, withCapture_behind]

/-- What a form leaves of a text, with another text behind: patterns and groups leave no white space
at the start, and the others stop right behind their bracket. -/
def Form.restWith (form : Form) (final s : Text) : Text :=
  match form with
  | .pattern => followedBy final s
  | .group => followedBy final s
  | _ => final ++ s

variable {form : Form} {reading : Reading}

/-- **Reading does not look behind the text it reads**, and other captures met before do not
matter. -/
theorem Reads.behind (hs : Trails s) (names : List String)
    (h : Reads grammar form met t reading met' final) :
    Reads grammar form (met.behind names) (t ++ s) reading (met'.behind names)
      (form.restWith final s) := by
  -- Every form but the lists ends with captures, which are carried over in one way.
  have hcaptured : ∀ {met met' : Met} {pattern captured : Pattern} {t final : Text},
      ReadsCaptures met pattern (skipSpace t) captured met' final →
        ReadsCaptures (met.behind names) pattern (skipSpace (t ++ s)) captured (met'.behind names)
          (followedBy final s) := by
    intro met met' pattern captured t final hcaptures
    rw [skipSpace_append hs]
    exact hcaptures.behind hs names
  induction h with
  | oneOf halternatives hcaptures ih =>
    rw [← skipSpace_append_of_length_lt hs (length_lt_of_reads halternatives)] at ih
    exact .oneOf ih (hcaptured hcaptures)
  | @inGroup _ _ rest _ _ hstarts hgroup ih =>
    have hbody := skipSpace_append_of_length_lt hs (length_lt_of_reads hgroup)
    rw [← hbody] at ih
    obtain ⟨c, hhead, hc⟩ := hstarts
    obtain ⟨tail, htail⟩ := List.head?_eq_some_iff.1 hhead
    have hstarts : StartsGroup (skipSpace (rest ++ s)) :=
      ⟨c, by rw [hbody, htail]; rfl, hc⟩
    exact .inGroup hstarts ih
  | node hname htest hsteps hcaptures ih =>
    have hbody := readName?_append_of_some hs hname
    rw [← skipSpace_append_of_length_lt hs (length_lt_of_readName? hname)] at hbody
    rw [← skipSpace_append_of_length_lt hs (length_lt_of_reads hsteps)] at ih
    exact .node hbody htest ih (hcaptured hcaptures)
  | token htoken hknown hcaptures =>
    exact .token (readString_append htoken) hknown (hcaptured hcaptures)
  | wildcard hcaptures => exact .wildcard (hcaptured hcaptures)
  | @inField _ _ _ t after rest _ _ _ _ _ hstart hname hcolon hpattern hknown hcaptures ih =>
    rw [← skipSpace_append_of_length_lt hs (length_lt_of_reads hpattern)] at ih
    have hafter : skipSpace (after ++ s) = ':' :: (rest ++ s) := by
      rw [skipSpace_append hs, hcolon, followedBy_cons]
    have hfinal := hcaptures.behind hs names
    rw [← skipSpace_followedBy hs] at hfinal
    obtain ⟨c, t, rfl⟩ :=
      List.exists_cons_of_ne_nil (ne_nil_of_length_lt (length_lt_of_readName? hname))
    exact .inField hstart (readName?_append_of_some hs hname) hafter ih hknown hfinal
  | last _ ih => exact .last ih
  | more hpattern hopen hothers ih ih' =>
    have hrest := ne_nil_of_length_lt (length_lt_of_reads hothers)
    rw [Form.restWith, followedBy_of_ne_nil hrest] at ih
    obtain ⟨c, t, rfl⟩ := List.exists_cons_of_ne_nil hrest
    exact .more ih hopen ih'
  | groupPredicate hstart hpredicate hgroup ih =>
    have hrest := hpredicate.behind hs names
    rw [followedBy_of_ne_nil (ne_nil_of_length_lt (length_lt_of_reads hgroup))] at hrest
    exact .groupPredicate (predicateStart?_append_of_some hs hstart) hrest ih
  | groupPattern hstart hpattern hend hcaptures ih ih' =>
    have hnone := predicateStart?_append hs (ne_nil_of_length_lt (length_lt_of_reads hpattern))
    rw [hstart] at hnone
    rw [Form.restWith, followedBy_of_ne_nil (ne_nil_of_length_lt (length_lt_of_reads hend))] at ih
    exact .groupPattern hnone ih ih' (hcaptured hcaptures)
  | groupClose => exact .groupClose
  | endPredicate hstart hpredicate hend ih =>
    have hrest := hpredicate.behind hs names
    rw [followedBy_of_ne_nil (ne_nil_of_length_lt (length_lt_of_reads hend))] at hrest
    exact .endPredicate (predicateStart?_append_of_some hs hstart) hrest ih
  | nodeClose hanchor hlast =>
    have hbody := anchor_append hs (ne_nil_of_length_lt (length_le_of_anchor hanchor)) hanchor
    exact .nodeClose hbody hlast
  | stepPredicate hanchor hstart hpredicate hsteps ih =>
    have hlt := length_lt_of_predicateStart? hstart
    have hbody := anchor_append hs
      (ne_nil_of_length_lt (Nat.lt_of_lt_of_le hlt (length_le_of_anchor hanchor))) hanchor
    rw [followedBy_of_ne_nil (ne_nil_of_length_lt hlt)] at hbody
    have hrest := hpredicate.behind hs names
    rw [followedBy_of_ne_nil (ne_nil_of_length_lt (length_lt_of_reads hsteps))] at hrest
    exact .stepPredicate hbody (predicateStart?_append_of_some hs hstart) hrest ih
  | step hanchor hstart hpattern hsteps ih ih' =>
    have hlt := length_lt_of_reads hpattern
    have hbody := anchor_append hs
      (ne_nil_of_length_lt (Nat.lt_of_lt_of_le hlt (length_le_of_anchor hanchor))) hanchor
    rw [followedBy_of_ne_nil (ne_nil_of_length_lt hlt)] at hbody
    have hnone := predicateStart?_append hs (ne_nil_of_length_lt hlt)
    rw [hstart] at hnone
    rw [Form.restWith, followedBy_of_ne_nil (ne_nil_of_length_lt (length_lt_of_reads hsteps))] at ih
    exact .step hbody hnone ih ih'

/-! ### Joined texts -/

/-- The patterns of two queries. -/
def append (first second : Query) : Query :=
  ⟨first.patterns ++ second.patterns, mergeNames first.captureNames second.captureNames⟩

/-- The patterns of several queries, in order. -/
def concat (queries : List Query) : Query :=
  queries.foldr append .empty

theorem trails_nil : Trails [] :=
  ⟨by simp, rfl, by simp [skipSpace, skipSpaceFrom]⟩

theorem followedBy_empty (t : Text) : followedBy t [] = t := by
  cases t with
  | nil => rfl
  | cons c t => simp

theorem ReadsTop.behind (names : List String) {captures : List String} {query : Query}
    (h : ReadsTop grammar captures t query) :
    ReadsTop grammar (mergeNames names captures) t
      ⟨query.patterns, mergeNames names query.captureNames⟩ := by
  induction h with
  | done => exact .done
  | pattern hstart hpattern _ ih =>
    have hread := hpattern.behind trails_nil names
    rw [List.append_nil, Form.restWith, followedBy_empty] at hread
    exact .pattern hstart hread ih

theorem ReadsTop.append (hs : Trails s) {captures : List String} {query next : Query}
    (h : ReadsTop grammar captures t query)
    (hnext : ReadsTop grammar query.captureNames (skipSpace s) next) :
    ReadsTop grammar captures (followedBy t s)
      ⟨query.patterns ++ next.patterns, next.captureNames⟩ := by
  induction h with
  | done => exact hnext
  | pattern hstart hpattern _ ih =>
    have hne := ne_nil_of_length_lt (length_lt_of_reads hpattern)
    have hnone := predicateStart?_append hs hne
    rw [hstart] at hnone
    have hread := hpattern.behind hs []
    rw [behind_nil, behind_nil] at hread
    rw [followedBy_of_ne_nil hne]
    exact .pattern hnone hread (ih hnext)

theorem ReadsTop.mark_ne {captures : List String} {query : Query}
    (h : ReadsTop grammar captures t query) : ∀ c ∈ t.head?, c ≠ '@' ∧ c ≠ '#' := by
  intro c hc
  cases h with
  | done => cases hc
  | pattern _ hpattern =>
    constructor
    · rintro rfl
      exact head?_ne_of_reads hpattern (by decide) hc
    · rintro rfl
      exact head?_ne_of_reads hpattern (by decide) hc

/-- Two texts that compile, with a blank line between, compile to the patterns of both. -/
theorem compile_append {first second : Text} {query next : Query}
    (h : compile grammar first = .ok query) (hnext : compile grammar second = .ok next) :
    compile grammar (first ++ ['\n', '\n'] ++ second) = .ok (query.append next) := by
  rw [compile_eq_ok_iff] at h hnext ⊢
  have hs : Trails ('\n' :: '\n' :: second) := ⟨by simp [isSpace], rfl, hnext.mark_ne⟩
  have hbehind := hnext.behind query.captureNames
  rw [mergeNames_nil_right] at hbehind
  rw [List.append_assoc, List.cons_append, List.cons_append, List.nil_append, skipSpace_append hs]
  exact h.append hs hbehind

theorem compile_nil : compile grammar [] = .ok .empty :=
  compile_eq_ok_iff.2 .done

/-- **Texts that compile, joined by blank lines, compile to all of their patterns.** -/
theorem compile_joinWith {texts : List Text} {queries : List Query}
    (h : texts.map (compile grammar) = queries.map .ok) :
    compile grammar (Text.joinWith ['\n', '\n'] texts) = .ok (concat queries) := by
  induction texts generalizing queries with
  | nil =>
    obtain rfl : queries = [] := by simpa using h.symm
    exact compile_nil
  | cons first texts ih =>
    cases queries with
    | nil => cases h
    | cons query queries =>
      obtain ⟨hfirst, hothers⟩ := List.cons.inj h
      cases texts with
      | nil =>
        obtain rfl : queries = [] := by simpa using hothers.symm
        rw [Text.joinWith, hfirst]
        simp [concat, append, Query.empty]
      | cons second texts =>
        rw [Text.joinWith]
        exact compile_append hfirst (ih hothers)

end Query

end SyntaxEdit
