/-
Kept queries are what their texts compile to.

A cache hands out an engine that was made for an earlier request, and forgets all its engines when a
new one comes and there is no more room.  None of this shows in the engines: each is the one that
the compiler makes for the grammar and the text of the request, whatever library compiles.

* `QueryCache.perform`, `QueryCache.run` — the answers to requests, one after the other;
* `compile_cases` — all that a request for an engine can do;
* `compile_clear` — a cache that was cleared has forgotten its engines;
* `IsSound` — what holds of a cache at all times, `IsSound.perform` and `IsSound.run` preserve it;
* `run_transparent` — so requests to a cache are answered as the compiler answers them.
-/
import Mathlib.Data.List.Nodup
import SyntaxEdit.Proofs.LenientCompilation
import SyntaxEdit.Query.Cache

namespace SyntaxEdit

/-- What a cache is asked to do. -/
inductive CacheRequest where
  | compile (grammar : Grammar) (source : Text)
  | clear
deriving DecidableEq

/-- The answer of the compiler alone. -/
def CacheRequest.direct (queries : QueryLibrary) :
    CacheRequest → Option (Except InvalidQuery QueryEngine)
  | compile grammar source => some (QueryEngine.compile grammar source queries)
  | clear => none

/-- The key that an engine is kept under. -/
def CachedQuery.key (entry : CachedQuery) : Grammar × Text :=
  (entry.grammar, entry.source)

namespace QueryCache

variable {queries : QueryLibrary} {c : QueryCache} {grammar : Grammar} {source : Text}
  {engine : QueryEngine} {failure : InvalidQuery}

/-- The answer to a request, engines without their serial numbers, and the cache after it. -/
def perform (queries : QueryLibrary) (c : QueryCache) :
    CacheRequest → Option (Except InvalidQuery QueryEngine) × QueryCache
  | .compile grammar source =>
    let (answer, c) := c.compile grammar source queries
    (some (answer.map Prod.fst), c)
  | .clear => (none, c.clear)

/-- The answers to several requests, one after the other, and the cache after them. -/
def run (queries : QueryLibrary) (c : QueryCache) :
    List CacheRequest → List (Option (Except InvalidQuery QueryEngine)) × QueryCache
  | [] => ([], c)
  | request :: rest =>
    let (answer, c) := c.perform queries request
    let (answers, c) := c.run queries rest
    (answer :: answers, c)

/-! ### One request -/

theorem find?_eq_some {entry : CachedQuery} (h : c.find? grammar source = some entry) :
    entry ∈ c.entries ∧ entry.grammar = grammar ∧ entry.source = source :=
  ⟨List.mem_of_find?_eq_some h, by simpa using List.find?_some h⟩

theorem find?_eq_none (h : c.find? grammar source = none) {entry : CachedQuery}
    (hentry : entry ∈ c.entries) : ¬(entry.grammar = grammar ∧ entry.source = source) := by
  simpa using List.find?_eq_none.1 h entry hentry

theorem find?_insert (c : QueryCache) (grammar : Grammar) (source : Text) (engine : QueryEngine) :
    (c.insert grammar source engine).find? grammar source =
      some ⟨grammar, source, engine, c.made⟩ := by
  rw [find?, insert, List.find?_cons_of_pos (by simp)]

/-- A request for an engine finds one that is kept, or meets a text that does not compile, and then
leaves the cache as it is; or else it makes an engine, which is kept from then on. -/
theorem compile_cases (queries : QueryLibrary) (c : QueryCache) (grammar : Grammar)
    (source : Text) :
    (∃ entry ∈ c.entries, entry.grammar = grammar ∧ entry.source = source ∧
      c.compile grammar source queries = (.ok (entry.engine, entry.serial), c)) ∨
    (∃ failure, QueryEngine.compile grammar source queries = .error failure ∧
      c.compile grammar source queries = (.error failure, c)) ∨
    (∃ engine, QueryEngine.compile grammar source queries = .ok engine ∧
      (∀ entry ∈ c.entries, ¬(entry.grammar = grammar ∧ entry.source = source)) ∧
      c.compile grammar source queries =
        (.ok (engine, c.made), c.insert grammar source engine)) := by
  rw [compile]
  cases hfound : c.find? grammar source with
  | some entry =>
    obtain ⟨hentry, hgrammar, hsource⟩ := find?_eq_some hfound
    exact Or.inl ⟨entry, hentry, hgrammar, hsource, rfl⟩
  | none =>
    cases hcompiled : QueryEngine.compile grammar source queries with
    | error failure => exact Or.inr (Or.inl ⟨failure, rfl, rfl⟩)
    | ok engine => exact Or.inr (Or.inr ⟨engine, rfl, fun _ => find?_eq_none hfound, rfl⟩)

/-- A request made again has the same answer, down to the serial number, and leaves the cache as it
is. -/
theorem compile_again (queries : QueryLibrary) (c : QueryCache) (grammar : Grammar)
    (source : Text) :
    (c.compile grammar source queries).2.compile grammar source queries =
      c.compile grammar source queries := by
  rcases compile_cases queries c grammar source with
    ⟨entry, -, -, -, h⟩ | ⟨failure, -, h⟩ | ⟨engine, -, -, h⟩
  · rw [h, h]
  · rw [h, h]
  · rw [h, compile, find?_insert]

/-- A cache that was cleared makes its engines anew, and goes on counting them. -/
theorem compile_clear (hengine : QueryEngine.compile grammar source queries = .ok engine) :
    c.clear.compile grammar source queries =
      (.ok (engine, c.made), c.clear.insert grammar source engine) := by
  rcases compile_cases queries c.clear grammar source with
    ⟨entry, hentry, -⟩ | ⟨failure, hfailure, -⟩ | ⟨engine', hengine', -, h⟩
  · -- Nothing was left to be found.
    rw [entries_clear] at hentry
    cases hentry
  · rw [hengine] at hfailure
    cases hfailure
  · obtain rfl := Except.ok.inj (hengine.symm.trans hengine')
    exact h

/-! ### What holds at all times -/

/-- Whether every kept engine is what its own key compiles to, no key has two of them, and there are
no more than a cache can hold. -/
structure IsSound (queries : QueryLibrary) (c : QueryCache) : Prop where
  compiles : ∀ entry ∈ c.entries,
    QueryEngine.compile entry.grammar entry.source queries = .ok entry.engine
  nodup : (c.entries.map CachedQuery.key).Nodup
  size_le : c.size ≤ capacity

/-- A cache in which nothing is kept is sound. -/
theorem isSound_of_entries_eq_nil (h : c.entries = []) : IsSound queries c := by
  refine ⟨?_, ?_, ?_⟩
  · intro entry hentry
    rw [h] at hentry
    cases hentry
  · rw [h]
    exact List.nodup_nil
  · rw [size, h]
    exact Nat.zero_le capacity

theorem IsSound.insert (h : IsSound queries c)
    (hengine : QueryEngine.compile grammar source queries = .ok engine)
    (hnew : ∀ entry ∈ c.entries, ¬(entry.grammar = grammar ∧ entry.source = source)) :
    IsSound queries (c.insert grammar source engine) := by
  by_cases hroom : c.size < capacity
  · have hentries : (c.insert grammar source engine).entries =
        ⟨grammar, source, engine, c.made⟩ :: c.entries := by
      rw [QueryCache.insert, if_pos hroom]
    refine ⟨?_, ?_, ?_⟩
    · rw [hentries]
      exact List.forall_mem_cons.2 ⟨hengine, h.compiles⟩
    · rw [hentries, List.map_cons, List.nodup_cons]
      refine ⟨?_, h.nodup⟩
      -- An entry for the same text under the same grammar would not have been missed.
      intro hmem
      obtain ⟨entry, hentry, hkey⟩ := List.mem_map.1 hmem
      exact hnew entry hentry (Prod.mk.inj hkey)
    · rw [size, hentries, List.length_cons]
      exact hroom
  · -- There is no room, so the new engine is the only one that is kept.
    have hentries : (c.insert grammar source engine).entries =
        [⟨grammar, source, engine, c.made⟩] := by
      rw [QueryCache.insert, if_neg hroom]
    refine ⟨?_, ?_, ?_⟩
    · rw [hentries]
      exact List.forall_mem_singleton.2 hengine
    · rw [hentries]
      exact List.nodup_singleton _
    · rw [size, hentries]
      exact Nat.le_of_ble_eq_true rfl

/-- A request for an engine is answered as the compiler answers it, and the cache stays sound. -/
theorem IsSound.compile (h : IsSound queries c) (grammar : Grammar) (source : Text) :
    (c.compile grammar source queries).1.map Prod.fst =
        QueryEngine.compile grammar source queries ∧
      IsSound queries (c.compile grammar source queries).2 := by
  -- A kept engine is what would be compiled, and only a new one changes the cache.
  rcases compile_cases queries c grammar source with
    ⟨entry, hentry, rfl, rfl, hresult⟩ | ⟨failure, hfailure, hresult⟩ |
      ⟨engine, hengine, hnew, hresult⟩
  · rw [hresult, h.compiles entry hentry]
    exact ⟨rfl, h⟩
  · rw [hresult, hfailure]
    exact ⟨rfl, h⟩
  · rw [hresult, hengine]
    exact ⟨rfl, h.insert hengine hnew⟩

/-- Nothing is kept for a text that does not compile, so a request for it leaves the cache as it
is. -/
theorem IsSound.compile_of_error (h : IsSound queries c)
    (hfailure : QueryEngine.compile grammar source queries = .error failure) :
    c.compile grammar source queries = (.error failure, c) := by
  rcases compile_cases queries c grammar source with
    ⟨entry, hentry, rfl, rfl, -⟩ | ⟨failure', hfailure', hresult⟩ | ⟨engine, hengine, -, -⟩
  · rw [h.compiles entry hentry] at hfailure
    cases hfailure
  · rw [hfailure] at hfailure'
    rw [hresult, Except.error.inj hfailure']
  · rw [hengine] at hfailure
    cases hfailure

/-! ### Several requests -/

/-- So is any request. -/
theorem IsSound.perform (h : IsSound queries c) (request : CacheRequest) :
    (c.perform queries request).1 = request.direct queries ∧
      IsSound queries (c.perform queries request).2 := by
  cases request with
  | compile grammar source =>
    obtain ⟨hanswer, hnext⟩ := h.compile grammar source
    exact ⟨congrArg some hanswer, hnext⟩
  | clear => exact ⟨rfl, isSound_of_entries_eq_nil c.entries_clear⟩

theorem run_cons (queries : QueryLibrary) (c : QueryCache) (request : CacheRequest)
    (rest : List CacheRequest) :
    c.run queries (request :: rest) =
      ((c.perform queries request).1 :: ((c.perform queries request).2.run queries rest).1,
        ((c.perform queries request).2.run queries rest).2) := rfl

theorem IsSound.run (h : IsSound queries c) (requests : List CacheRequest) :
    (c.run queries requests).1 = requests.map (CacheRequest.direct queries) ∧
      IsSound queries (c.run queries requests).2 := by
  induction requests generalizing c with
  | nil => exact ⟨rfl, h⟩
  | cons request rest ih =>
    obtain ⟨hanswer, hnext⟩ := h.perform request
    obtain ⟨hanswers, hlast⟩ := ih hnext
    rw [run_cons]
    exact ⟨by rw [hanswer, hanswers, List.map_cons], hlast⟩

/-- **A cache of queries cannot be told from the compiler**, whatever library compiles.  Whatever
requests a cache that started empty has met, each was answered as the compiler answers it.  What is
kept is what its own key compiles to, once for each key and 256 times at most; a text that does not
compile leaves the cache as it is; and a request made again has the same answer, down to the serial
number of its engine. -/
theorem run_transparent (queries : QueryLibrary) (requests : List CacheRequest) :
    (empty.run queries requests).1 = requests.map (CacheRequest.direct queries) ∧
    (∀ entry ∈ (empty.run queries requests).2.entries,
      QueryEngine.compile entry.grammar entry.source queries = .ok entry.engine) ∧
    ((empty.run queries requests).2.entries.map CachedQuery.key).Nodup ∧
    (empty.run queries requests).2.size ≤ 256 ∧
    ∀ grammar source,
      (∀ failure, QueryEngine.compile grammar source queries = .error failure →
        (empty.run queries requests).2.compile grammar source queries =
          (.error failure, (empty.run queries requests).2)) ∧
      ((empty.run queries requests).2.compile grammar source queries).2.compile grammar source
          queries =
        (empty.run queries requests).2.compile grammar source queries := by
  obtain ⟨hanswers, hsound⟩ := (isSound_of_entries_eq_nil (c := empty) rfl).run requests
  refine ⟨hanswers, hsound.compiles, hsound.nodup, hsound.size_le, fun grammar source => ⟨?_, ?_⟩⟩
  · intro failure hfailure
    exact hsound.compile_of_error hfailure
  · exact compile_again queries _ grammar source

/-- Requests for any node under two grammars, the first of which is forgotten and the last met from
what is kept, and for a pattern that does not compile. -/
def mixedRequests : List CacheRequest :=
  [.compile .javascript anyNode.text, .clear, .compile .javascript withoutCapture.text,
    .compile .javascript anyNode.text, .compile .python anyNode.text,
    .compile .javascript anyNode.text]

/-- One text is kept for each grammar that it was asked for under, and a refused one is not kept. -/
theorem run_transparent_mixedRequests :
    ∃ failure, QueryEngine.compile .javascript withoutCapture.text = .error failure ∧
      (empty.run .basic mixedRequests).1 =
        [some (.ok ⟨.javascript, queryOfAny.compiled, 0⟩), none, some (.error failure),
          some (.ok ⟨.javascript, queryOfAny.compiled, 0⟩),
          some (.ok ⟨.python, queryOfAny.compiled, 0⟩),
          some (.ok ⟨.javascript, queryOfAny.compiled, 0⟩)] ∧
      (empty.run .basic mixedRequests).2.compile .javascript withoutCapture.text =
        (.error failure, (empty.run .basic mixedRequests).2) ∧
      (empty.run .basic mixedRequests).2.size = 2 := by
  have hengine : ∀ grammar, QueryEngine.compile grammar anyNode.text =
      .ok ⟨grammar, queryOfAny.compiled, 0⟩ := fun _ => rfl
  obtain ⟨failure, hfailure⟩ : ∃ failure,
      QueryEngine.compile .javascript withoutCapture.text = .error failure := ⟨_, rfl⟩
  obtain ⟨hanswers, -, -, -, hrequest⟩ := run_transparent .basic mixedRequests
  refine ⟨failure, hfailure, ?_, (hrequest _ _).1 failure hfailure, rfl⟩
  rw [hanswers]
  simp only [mixedRequests, List.map_cons, List.map_nil, CacheRequest.direct, hengine, hfailure]

end QueryCache

end SyntaxEdit
