/-
The ways to address the node of an edit agree.

* `SyntaxTree.target_eq_of_only_match` — a text with one match addresses one node, whether it is
  meant as a semantic path or as either kind, and so does the structural path of the match;
* `target_eq_of_matches` — a text with several matches addresses none;
* `target_either_of_no_match` — a text without matches is a structural path, if it is any;
* `addressing_agrees` — what follows for updates and deletions.
-/
import SyntaxEdit.Edit.Basic
import SyntaxEdit.Proofs.ListedPaths
import SyntaxEdit.Proofs.Removal

namespace SyntaxEdit

namespace SyntaxTree

variable {t : SyntaxTree} {path : Text}

/-! ### Targets -/

/-- **The three ways to address a node agree** where a text has one match. -/
theorem target_eq_of_only_match (hqueries : t.queries.FindsNodes) (htypes : t.HasReadableTypes)
    {m : SemanticMatch} (h : t.findSemantic path = [m]) :
    ∃ n ∈ t.nodes, t.resolve? m.path = some n ∧
      m.start = n.start ∧ m.stop = n.stop ∧ m.text = t.textOf n.node ∧
      t.target .either path = .ok n ∧ t.target .semantic path = .ok n ∧
      t.target .structural m.path.render = .ok n := by
  have hmem : m ∈ t.findSemantic path := by rw [h]; exact List.mem_singleton_self m
  obtain ⟨n, hn, hpath, hstart, hstop, htext⟩ := exists_node_of_mem_findSemantic hqueries hmem
  have honly : t.onlyMatch? path = .ok (some m) := by rw [onlyMatch?, h]
  -- The match is written as a text on one way, and kept as a path on the other.
  have hwritten : t.structuralTarget m.path.render = .ok n := by
    rw [structuralTarget, hpath, resolveText?_render_pathOf htypes hn]
  have hkept : t.resolve? m.path = some n := by
    rw [hpath]
    exact resolve?_pathOf hn
  refine ⟨n, hn, hkept, hstart, hstop, htext, ?_, ?_, hwritten⟩
  · simp only [target, honly, bind, Except.bind, hkept]
  · simp only [target, honly, bind, Except.bind, hwritten]

theorem onlyMatch?_of_matches (h : 2 ≤ (t.findSemantic path).length) :
    t.onlyMatch? path =
      .error (.ambiguousPath path ((t.findSemantic path).map SemanticMatch.description)) := by
  rw [onlyMatch?]
  match hfound : t.findSemantic path with
  | [] => simp [hfound] at h
  | [m] => simp [hfound] at h
  | first :: second :: others => rfl

/-- Several matches are never taken for one, not even if the text is a structural path as well. -/
theorem target_eq_of_matches (h : 2 ≤ (t.findSemantic path).length) {how : Addressing}
    (hhow : how ≠ .structural) :
    t.target how path =
      .error (.ambiguousPath path ((t.findSemantic path).map SemanticMatch.description)) := by
  cases how with
  | structural => exact absurd rfl hhow
  | semantic => simp only [target, onlyMatch?_of_matches h, bind, Except.bind]
  | either => simp only [target, onlyMatch?_of_matches h, bind, Except.bind]

theorem target_semantic_of_no_match (h : t.findSemantic path = []) :
    t.target .semantic path = .error (.nodeNotFound path (t.suggest path)) := by
  simp only [target, onlyMatch?, h, bind, Except.bind, notFound]

/-- Without a match, a structural path is what is left. -/
theorem target_either_of_no_match (h : t.findSemantic path = []) :
    t.target .either path =
      match t.resolveText? path with
      | some n => .ok n
      | none => .error (.nodeNotFound path (t.suggest path)) := by
  cases hresolved : t.resolveText? path with
  | none => simp only [target, onlyMatch?, h, hresolved, bind, Except.bind, notFound]
  | some n => simp only [target, onlyMatch?, h, hresolved, bind, Except.bind]

/-! ### Edits -/

/-- The text after an update is the source with the text of the node replaced. -/
theorem exists_textAfter_update (hslices : t.HasSlices) {n : Located} (hn : n ∈ t.nodes) :
    ∃ front back, t.source = front ++ t.textOf n.node ++ back ∧
      Text.byteLength front = n.start ∧ Text.byteLength (front ++ t.textOf n.node) = n.stop ∧
      ∀ how path content, t.target how path = .ok n →
        (Edit.update how path content).textAfter t = .ok (front ++ content ++ back) := by
  obtain ⟨front, back, hsource, hstart, hstop⟩ := exists_source_eq hslices hn
  refine ⟨front, back, hsource, hstart, hstop, fun how path content htarget => ?_⟩
  have hsplice : (Splice.mk n.start n.stop content).apply t.source =
      .ok (front ++ content ++ back) := by
    rw [hsource, ← hstart, ← hstop, Splice.apply_append]
  simp only [Edit.textAfter, updated, htarget, bind, Except.bind, hsplice, inText]

/-- What an edit makes of a source depends on the node that it addresses, not on how it does so. -/
theorem exists_textAfter_of_target (ht : t.WellFormed) {n : Located} (hn : n ∈ t.nodes) :
    ∃ front back rest, t.source = front ++ t.textOf n.node ++ back ∧
      Text.byteLength front = n.start ∧ Text.byteLength (front ++ t.textOf n.node) = n.stop ∧
      t.textWithout n = .ok rest ∧
      ∀ how path content, t.target how path = .ok n →
        (Edit.update how path content).textAfter t = .ok (front ++ content ++ back) ∧
          (Edit.delete how path).textAfter t = .ok rest := by
  obtain ⟨front, back, hsource, hstart, hstop, hupdate⟩ := exists_textAfter_update ht.slices hn
  obtain ⟨rest, hrest⟩ := exists_textWithout ht.slices ht.ordered hn
  refine ⟨front, back, rest, hsource, hstart, hstop, hrest, fun how path content htarget => ?_⟩
  refine ⟨hupdate how path content htarget, ?_⟩
  simp only [Edit.textAfter, deleted, htarget, bind, Except.bind, hrest, inText]

theorem textAfter_of_target_error {how : Addressing} {e : EditError}
    (h : t.target how path = .error e) (content : Text) :
    (Edit.update how path content).textAfter t = .error e ∧
      (Edit.delete how path).textAfter t = .error e := by
  simp only [Edit.textAfter, updated, deleted, h, bind, Except.bind, and_self]

/-- **The ways to address an edit agree** on a tree that fits its source and whose types can be
written, if queries find nodes of it.  With one match, the text itself, the text as a semantic path,
and the written path of the match all replace the text of the node that is matched, and all remove
that node.  With several matches the edit fails and describes them all.  With none, it fails or
takes the text as a structural path. -/
theorem addressing_agrees (hqueries : t.queries.FindsNodes) (ht : t.WellFormed)
    (htypes : t.HasReadableTypes) (path content : Text) :
    (∀ m, t.findSemantic path = [m] →
      ∃ n front back rest, t.resolve? m.path = some n ∧ t.source = front ++ m.text ++ back ∧
        Text.byteLength front = m.start ∧ Text.byteLength (front ++ m.text) = m.stop ∧
        t.textWithout n = .ok rest ∧
        ∀ address ∈ [(Addressing.either, path), (.semantic, path), (.structural, m.path.render)],
          (Edit.update address.1 address.2 content).textAfter t = .ok (front ++ content ++ back) ∧
            (Edit.delete address.1 address.2).textAfter t = .ok rest) ∧
    (2 ≤ (t.findSemantic path).length →
      ∀ how ∈ [Addressing.either, .semantic],
        (Edit.update how path content).textAfter t =
            .error (.ambiguousPath path ((t.findSemantic path).map SemanticMatch.description)) ∧
          (Edit.delete how path).textAfter t =
            .error (.ambiguousPath path ((t.findSemantic path).map SemanticMatch.description))) ∧
    (t.findSemantic path = [] →
      ((Edit.update .semantic path content).textAfter t =
          .error (.nodeNotFound path (t.suggest path)) ∧
        (Edit.delete .semantic path).textAfter t = .error (.nodeNotFound path (t.suggest path))) ∧
      (∀ n, t.resolveText? path = some n →
        ∃ front back rest, t.source = front ++ t.textOf n.node ++ back ∧
          Text.byteLength front = n.start ∧ Text.byteLength (front ++ t.textOf n.node) = n.stop ∧
          t.textWithout n = .ok rest ∧
          ∀ how ∈ [Addressing.either, .structural],
            (Edit.update how path content).textAfter t = .ok (front ++ content ++ back) ∧
              (Edit.delete how path).textAfter t = .ok rest) ∧
      (t.resolveText? path = none →
        ((Edit.update .either path content).textAfter t =
            .error (.nodeNotFound path (t.suggest path)) ∧
          (Edit.delete .either path).textAfter t = .error (.nodeNotFound path (t.suggest path))) ∧
        ((Edit.update .structural path content).textAfter t = .error (.nodeNotFound path []) ∧
          (Edit.delete .structural path).textAfter t = .error (.nodeNotFound path [])))) := by
  refine ⟨fun m hm => ?_, fun hmany how hhow => ?_, fun hnone => ⟨?_, fun n hn => ?_, fun hn => ?_⟩⟩
  · obtain ⟨n, hn, hresolve, hstart, hstop, htext, heither, hsemantic, hstructural⟩ :=
      target_eq_of_only_match hqueries htypes hm
    obtain ⟨front, back, rest, hsource, hfront, hback, hrest, hedits⟩ :=
      exists_textAfter_of_target ht hn
    rw [htext, hstart, hstop]
    refine ⟨n, front, back, rest, hresolve, hsource, hfront, hback, hrest, ?_⟩
    simp only [List.forall_mem_cons]
    exact ⟨hedits _ _ _ heither, hedits _ _ _ hsemantic, hedits _ _ _ hstructural, by simp⟩
  · -- Of several matches none is taken, and a structural path is the only text that asks for none.
    have hne : how ≠ .structural := by
      rintro rfl
      exact absurd hhow (by decide)
    exact textAfter_of_target_error (target_eq_of_matches hmany hne) content
  · exact textAfter_of_target_error (target_semantic_of_no_match hnone) content
  · -- Without a match the text is left to be read as a path, and leads to a node.
    have heither : t.target .either path = .ok n := by
      rw [target_either_of_no_match hnone, hn]
    have hstructural : t.target .structural path = .ok n := by
      rw [target, structuralTarget, hn]
    obtain ⟨front, back, rest, hsource, hfront, hback, hrest, hedits⟩ :=
      exists_textAfter_of_target ht (mem_nodes_of_resolveText? hn)
    refine ⟨front, back, rest, hsource, hfront, hback, hrest, ?_⟩
    simp only [List.forall_mem_cons]
    exact ⟨hedits _ _ _ heither, hedits _ _ _ hstructural, by simp⟩
  · -- Neither a match nor a node: the two ways differ only in what they suggest.
    refine ⟨textAfter_of_target_error ?_ content, textAfter_of_target_error ?_ content⟩
    · rw [target_either_of_no_match hnone, hn]
    · rw [target, structuralTarget, hn]

/-- The function of a tree with a comment is replaced and removed by its name and by its path. -/
theorem addressing_agrees_plainName :
    ∃ m n rest, (ofFunction "f".toList).findSemantic "f".toList = [m] ∧
      (ofFunction "f".toList).resolve? m.path = some n ∧
      (ofFunction "f".toList).textWithout n = .ok rest ∧
      ∃ updated, ∀ address ∈ [(Addressing.either, "f".toList), (.semantic, "f".toList),
          (.structural, m.path.render)],
        (Edit.update address.1 address.2 "é".toList).textAfter (ofFunction "f".toList) =
            .ok updated ∧
          (Edit.delete address.1 address.2).textAfter (ofFunction "f".toList) = .ok rest := by
  have ht : (ofFunction "f".toList).WellFormed := ⟨by decide, by decide, by decide⟩
  have hroot : ∀ c ∈ (ofFunction "f".toList).root.type.toList.head?, isBlank c = false := by
    intro c hc
    obtain rfl : 's' = c := Option.some.inj hc
    decide
  have htypes : (ofFunction "f".toList).HasReadableTypes :=
    ⟨by decide, by decide +kernel, hroot, by decide +kernel⟩
  have hlength : ((ofFunction "f".toList).findSemantic "f".toList).length = 1 := by decide +kernel
  obtain ⟨m, hm⟩ := List.length_eq_one_iff.1 hlength
  obtain ⟨n, front, back, rest, hresolve, -, -, -, hrest, hedits⟩ :=
    (addressing_agrees QueryLibrary.findsNodes_basic ht htypes "f".toList "é".toList).1 m hm
  exact ⟨m, n, rest, hm, hresolve, hrest, front ++ "é".toList ++ back, hedits⟩

end SyntaxTree

end SyntaxEdit
