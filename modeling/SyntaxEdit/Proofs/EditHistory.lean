/-
Chains of edits do not remember how they came to their text.

An edit makes a tree afresh from the edited text, under the pack of the chain, and an edit that
fails changes nothing.  So all that an editor knows follows from its current text and from what its
chain started with, whatever makes the trees and runs the queries.

* `Editor.InChain` — what holds of the editors of a chain;
* `InChain.edit`, `InChain.run` — one edit preserves it, and so do several, which change the text
  one after the other;
* `InChain.eq_of_text_eq` — the editors of a chain are told apart by their texts;
* `chain_historyIndependent` — so chains that meet agree in everything, and a chain that comes back
  to its first text shows no change.
-/
import SyntaxEdit.Edit.Chain

namespace SyntaxEdit

namespace Editor

variable {parser : Parser} {queries : QueryLibrary} {pack : LanguagePack} {first : Text}
  {e e' next : Editor} {change : Edit}

/-! ### One edit -/

/-- Whether an editor can stand in the chain from a first text under a pack: it keeps the first
text, and its tree is that of its current text. -/
structure InChain (parser : Parser) (queries : QueryLibrary) (pack : LanguagePack) (first : Text)
    (e : Editor) : Prop where
  firstText_eq : e.firstText = first
  tree_eq : e.tree = .parse parser pack e.text queries

theorem InChain.pack_eq (h : InChain parser queries pack first e) : e.pack = pack := by
  show e.tree.pack = pack
  rw [h.tree_eq]
  rfl

theorem InChain.queries_eq (h : InChain parser queries pack first e) :
    e.tree.queries = queries := by
  rw [h.tree_eq]
  rfl

theorem inChain_ofText (parser : Parser) (queries : QueryLibrary) (pack : LanguagePack)
    (first : Text) : InChain parser queries pack first (ofText parser pack first queries) :=
  ⟨rfl, rfl⟩

/-- The text after an edit of the tree of a text, or the text itself if the edit fails. -/
def textOrStay (parser : Parser) (queries : QueryLibrary) (pack : LanguagePack) (t : Text)
    (change : Edit) : Text :=
  match change.textAfter (.parse parser pack t queries) with
  | .ok r => r
  | .error _ => t

/-- What an edit makes has the text that the edit makes, and a tree of its own. -/
theorem edit_eq_ok_iff :
    e.edit parser change = .ok next ↔
      ∃ r, change.textAfter e.tree = .ok r ∧ next = e.withText parser r := by
  simp only [edit, bind, Except.bind, pure, Except.pure]
  cases change.textAfter e.tree with
  | ok r => simp [eq_comm]
  | error failure => simp

/-- An edit stays in its chain. -/
theorem InChain.edit (h : InChain parser queries pack first e)
    (hnext : e.edit parser change = .ok next) : InChain parser queries pack first next := by
  obtain ⟨r, -, rfl⟩ := edit_eq_ok_iff.1 hnext
  refine ⟨h.firstText_eq, ?_⟩
  rw [withText, h.pack_eq, h.queries_eq]
  rfl

/-- So does an edit that may fail, and what it makes of the text it makes of the text alone. -/
theorem InChain.editOrStay (h : InChain parser queries pack first e) (change : Edit) :
    InChain parser queries pack first (e.editOrStay parser change) ∧
      (e.editOrStay parser change).text = textOrStay parser queries pack e.text change := by
  have htree := h.tree_eq
  rw [Editor.editOrStay, textOrStay, ← htree]
  cases hresult : change.textAfter e.tree with
  | ok r =>
    have hedit : e.edit parser change = .ok (e.withText parser r) :=
      edit_eq_ok_iff.2 ⟨r, hresult, rfl⟩
    rw [hedit]
    exact ⟨h.edit hedit, rfl⟩
  | error failure =>
    -- An edit that fails leaves the editor where it stood in the chain.
    have hedit : e.edit parser change = .error failure := by
      simp only [Editor.edit, hresult, bind, Except.bind]
    rw [hedit]
    exact ⟨h, rfl⟩

/-! ### Several edits -/

/-- Any number of edits stays in the chain, and they change the text one after the other. -/
theorem InChain.run (h : InChain parser queries pack first e) (changes : List Edit) :
    InChain parser queries pack first (e.run parser changes) ∧
      (e.run parser changes).text = changes.foldl (textOrStay parser queries pack) e.text := by
  induction changes generalizing e with
  | nil => exact ⟨h, rfl⟩
  | cons change rest ih =>
    obtain ⟨hnext, htext⟩ := h.editOrStay change
    obtain ⟨hrun, hrest⟩ := ih hnext
    refine ⟨hrun, ?_⟩
    rw [List.foldl_cons, ← htext, ← hrest]
    rfl

/-- **The editors of a chain are told apart by their texts.** -/
theorem InChain.eq_of_text_eq (h : InChain parser queries pack first e)
    (h' : InChain parser queries pack first e') (htext : e.text = e'.text) : e = e' := by
  have htree : e.tree = e'.tree := by rw [h.tree_eq, h'.tree_eq, htext]
  have hfirst : e.firstText = e'.firstText := h.firstText_eq.trans h'.firstText_eq.symm
  cases e
  cases e'
  exact congr (congrArg Editor.mk htree) hfirst

/-! ### The first text -/

/-- Whether an editor shows no change. -/
structure IsClean (parser : Parser) (e : Editor) : Prop where
  isModified : e.isModified = false
  diff : ∀ label, e.diff label = []
  hunks : e.hunks = 0
  validate : e.validate parser = .ok ()

theorem diff_of_eq (h : e.firstText = e.text) (label : Text) : e.diff label = [] := by
  rw [Editor.diff, unifiedDiff, if_pos h]

theorem hunks_of_eq (h : e.firstText = e.text) : e.hunks = 0 := by
  rw [Editor.hunks, hunkCount, if_pos h]

theorem isModified_eq_false_iff : e.isModified = false ↔ e.text = e.firstText := by
  rw [Editor.isModified, decide_eq_false_iff_not, Decidable.not_not, eq_comm]

/-- A tree has no more errors than the tree of the same text. -/
theorem validate_of_tree_eq (h : e.tree = .parse parser e.pack e.firstText e.tree.queries) :
    e.validate parser = .ok () := by
  rw [Editor.validate, ← h]
  split
  · rfl
  · rename_i first rest herrors
    rw [herrors, List.length_cons]
    exact if_pos (Nat.le_refl _)

/-- At its first text, a chain shows no change. -/
theorem InChain.isClean (h : InChain parser queries pack first e) (htext : e.text = first) :
    IsClean parser e := by
  have hsame : e.firstText = e.text := h.firstText_eq.trans htext.symm
  refine ⟨isModified_eq_false_iff.2 hsame.symm, diff_of_eq hsame, hunks_of_eq hsame,
    validate_of_tree_eq ?_⟩
  rw [hsame, h.pack_eq, h.queries_eq]
  exact h.tree_eq

/-! ### Chains that meet -/

/-- Whether two editors agree in all that can be asked of them, and in all that further edits
make. -/
structure Agree (parser : Parser) (e e' : Editor) : Prop where
  isModified : e.isModified = e'.isModified
  diff : ∀ label, e.diff label = e'.diff label
  hunks : e.hunks = e'.hunks
  validate : e.validate parser = e'.validate parser
  semanticPaths : e.tree.semanticPaths = e'.tree.semanticPaths
  findSemantic : ∀ path, e.tree.findSemantic path = e'.tree.findSemantic path
  resolveText? : ∀ path, e.tree.resolveText? path = e'.tree.resolveText? path
  edit : ∀ change, e.edit parser change = e'.edit parser change
  run : ∀ changes, e.run parser changes = e'.run parser changes

theorem Agree.refl (parser : Parser) (e : Editor) : Agree parser e e :=
  ⟨rfl, fun _ => rfl, rfl, rfl, rfl, fun _ => rfl, fun _ => rfl, fun _ => rfl, fun _ => rfl⟩

/-- The editor that several edits of a text lead to, those that fail left out. -/
def chain (parser : Parser) (queries : QueryLibrary) (pack : LanguagePack) (first : Text)
    (changes : List Edit) : Editor :=
  (ofText parser pack first queries).run parser changes

theorem inChain_chain (parser : Parser) (queries : QueryLibrary) (pack : LanguagePack)
    (first : Text) (changes : List Edit) :
    InChain parser queries pack first (chain parser queries pack first changes) :=
  ((inChain_ofText parser queries pack first).run changes).1

/-- **Chains of edits do not depend on their history.**  Whatever the edits, failed ones included,
the first text and the pack stay, and the tree is that of the current text.  So chains from one text
that come to one text agree from then on, and at its first text a chain shows no change. -/
theorem chain_historyIndependent (parser : Parser) (queries : QueryLibrary) (pack : LanguagePack)
    (first : Text) (changes : List Edit) :
    (chain parser queries pack first changes).firstText = first ∧
    (chain parser queries pack first changes).pack = pack ∧
    (chain parser queries pack first changes).tree =
      .parse parser pack (chain parser queries pack first changes).text queries ∧
    (chain parser queries pack first changes).text =
      changes.foldl (textOrStay parser queries pack) first ∧
    (∀ changes',
      (chain parser queries pack first changes').text =
          (chain parser queries pack first changes).text →
        Agree parser (chain parser queries pack first changes')
          (chain parser queries pack first changes)) ∧
    ((chain parser queries pack first changes).text = first →
      IsClean parser (chain parser queries pack first changes)) := by
  have hchain := inChain_chain parser queries pack first changes
  have htext := ((inChain_ofText parser queries pack first).run changes).2
  refine ⟨hchain.firstText_eq, hchain.pack_eq, hchain.tree_eq, htext, fun changes' hsame => ?_,
    hchain.isClean⟩
  rw [(inChain_chain parser queries pack first changes').eq_of_text_eq hchain hsame]
  exact Agree.refl parser _

/-- A parser that makes one node of every text, an error where a bracket is open in it. -/
def oneNode : Parser := fun _ t =>
  let broken := t.count '(' ≠ t.count ')'
  ⟨.mk ⟨"program", true, false, broken, false, 0, Text.byteLength t, none⟩ [], broken⟩

/-- A replacement of the whole text, a removal of what is not there, and a replacement of the first
line. -/
def thereAndBack : List Edit :=
  [.update .structural "program[0]".toList "g()\n".toList,
    .delete .structural "program[1]".toList, .updateLine 1 "f(".toList]

/-- A chain that comes back to its first text is where it was, also where that text is broken. -/
theorem chain_historyIndependent_thereAndBack :
    (chain oneNode .basic (.plain "javascript" .javascript) "f(\n".toList thereAndBack).text =
        "f(\n".toList ∧
      Agree oneNode (chain oneNode .basic (.plain "javascript" .javascript) "f(\n".toList [])
        (chain oneNode .basic (.plain "javascript" .javascript) "f(\n".toList thereAndBack) ∧
      IsClean oneNode
        (chain oneNode .basic (.plain "javascript" .javascript) "f(\n".toList thereAndBack) := by
  have hback :
      (chain oneNode .basic (.plain "javascript" .javascript) "f(\n".toList thereAndBack).text =
        "f(\n".toList := by decide +kernel
  obtain ⟨-, -, -, -, hagree, hclean⟩ := chain_historyIndependent oneNode .basic
    (.plain "javascript" .javascript) "f(\n".toList thereAndBack
  exact ⟨hback, hagree [] hback.symm, hclean hback⟩

end Editor

end SyntaxEdit
