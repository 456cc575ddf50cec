/-
Updates of nodes by their own paths.

The path of a node, as it is written, leads back to that node, so an update replaces just its text.

* `Editor.edit_update_pathOf` — the new text, for every node and every content, and what it means
  for a fresh editor: only the text that the node had leaves no change.
-/
import SyntaxEdit.Proofs.EditHistory
import SyntaxEdit.Proofs.WellPlaced

namespace SyntaxEdit

open Text (byteLength)

namespace SyntaxTree

variable {t : SyntaxTree} {n : Located}

/-- The written path of a node is the target of an edit by path. -/
theorem target_render_pathOf (htypes : t.HasReadableTypes) (hn : n ∈ t.nodes) :
    t.target .structural (t.pathOf n).render = .ok n := by
  rw [target, structuralTarget, resolveText?_render_pathOf htypes hn]

end SyntaxTree

namespace Editor

variable {e : Editor} {n : Located}

/-- **An update by the path of a node replaces the text of this node and nothing else.**  Where
nothing was changed before, the content that leaves no change is the text of the node, and then
there is no difference to report. -/
theorem edit_update_pathOf (parser : Parser) (hslices : e.tree.HasSlices)
    (htypes : e.tree.HasReadableTypes) (hn : n ∈ e.tree.nodes) :
    ∃ front back, e.text = front ++ e.tree.textOf n.node ++ back ∧ byteLength front = n.start ∧
      byteLength (front ++ e.tree.textOf n.node) = n.stop ∧
      ∀ content, ∃ next,
        e.edit parser (.update .structural (e.tree.pathOf n).render content) = .ok next ∧
        next.text = front ++ content ++ back ∧
        (e.firstText = e.text →
          (next.isModified = false ↔ content = e.tree.textOf n.node) ∧
          (content = e.tree.textOf n.node →
            next.text = e.text ∧ (∀ label, next.diff label = []) ∧ next.hunks = 0)) := by
  obtain ⟨front, back, hsource, hstart, hstop, hupdate⟩ :=
    SyntaxTree.exists_textAfter_update hslices hn
  refine ⟨front, back, hsource, hstart, hstop, fun content => ?_⟩
  have htext := hupdate _ _ content (SyntaxTree.target_render_pathOf htypes hn)
  refine ⟨e.withText parser (front ++ content ++ back), edit_eq_ok_iff.2 ⟨_, htext, rfl⟩, rfl,
    fun hfresh => ⟨?_, fun hsame => ?_⟩⟩
  · rw [isModified_eq_false_iff]
    show front ++ content ++ back = e.firstText ↔ _
    have hwhole : e.firstText = front ++ e.tree.textOf n.node ++ back := hfresh.trans hsource
    -- The text around the node is the same, so only the node can make a difference.
    rw [hwhole, List.append_left_inj, List.append_right_inj]
  · have hback : front ++ content ++ back = e.text := by
      rw [hsame]
      exact hsource.symm
    have hunchanged : e.firstText = (e.withText parser (front ++ content ++ back)).text :=
      hfresh.trans hback.symm
    exact ⟨hback, diff_of_eq hunchanged, hunks_of_eq hunchanged⟩

/-- The missing token of an unclosed call is found by its path. Its text is empty, so an update with
no text leaves all as it is, and one with a bracket closes the call. -/
theorem edit_update_pathOf_missingToken :
    ∃ n ∈ SyntaxTree.ofUnclosedCall.nodes, n.node.isNamed = false ∧ n.start = n.stop ∧
      (∃ next, (start .ofUnclosedCall).edit oneNode (.update .structural
          (SyntaxTree.ofUnclosedCall.pathOf n).render []) = .ok next ∧
        next.isModified = false ∧ (∀ label, next.diff label = []) ∧ next.hunks = 0) ∧
      ∃ next, (start .ofUnclosedCall).edit oneNode (.update .structural
          (SyntaxTree.ofUnclosedCall.pathOf n).render ")".toList) = .ok next ∧
        next.text = "// É\r\nf(x)".toList ∧ next.isModified = true := by
  have hslices : SyntaxTree.ofUnclosedCall.HasSlices := by decide
  have hroot : ∀ c ∈ SyntaxTree.ofUnclosedCall.root.type.toList.head?, isBlank c = false := by
    intro c hc
    obtain rfl : 'p' = c := Option.some.inj hc
    decide
  have htypes : SyntaxTree.ofUnclosedCall.HasReadableTypes :=
    ⟨by decide, by decide +kernel, hroot, by decide +kernel⟩
  obtain ⟨node, hnode⟩ : ∃ node, SyntaxTree.ofUnclosedCall.root.at? [1, 1, 2] = some node :=
    ⟨_, rfl⟩
  have hmem : ⟨[1, 1, 2], node⟩ ∈ SyntaxTree.ofUnclosedCall.nodes :=
    SyntaxTree.mem_nodes_iff.2 hnode
  cases hnode
  obtain ⟨front, back, hsource, hstart, -, hupdate⟩ :=
    edit_update_pathOf oneNode (e := start .ofUnclosedCall) hslices htypes hmem
  refine ⟨_, hmem, rfl, rfl, ?_, ?_⟩
  · obtain ⟨next, hnext, -, hfresh⟩ := hupdate []
    obtain ⟨hmodified, hsame⟩ := hfresh rfl
    obtain ⟨-, hdiff, hhunks⟩ := hsame rfl
    exact ⟨next, hnext, hmodified.2 rfl, hdiff, hhunks⟩
  · obtain ⟨next, hnext, htext, hfresh⟩ := hupdate ")".toList
    -- Nothing follows the token, and its text is empty.
    have hwhole : "// É\r\nf(x".toList ++ [] = front ++ back := by
      rw [List.append_nil]
      exact hsource.trans (by rw [List.append_assoc]; rfl)
    obtain ⟨rfl, rfl⟩ := Text.append_inj_of_byteLength hwhole hstart.symm
    refine ⟨next, hnext, htext, ?_⟩
    rw [← Bool.not_eq_false]
    exact fun h => absurd ((hfresh rfl).1.1 h) (by decide)

end Editor

end SyntaxEdit
