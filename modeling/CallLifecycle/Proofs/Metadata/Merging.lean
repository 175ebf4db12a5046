import CallLifecycle.Metadata
import Mathlib.Data.List.Nodup
import Mathlib.Data.List.Induction

/-!
# Merging and sanitizing metadata

Collections are compared by the values of their names. In which order a collection is gone through says nothing about
it, except that the values of one name come in theirs.

* `mem_names`, `nodup_names` — the names of a collection, each once;
* `agrees_iff` — collections agree just if every name has the same values in both;
* `Walks`, `walks_grouped`, `Walks.perm` — the orders in which a collection may be gone through; none of them leaves a
  value out or brings one twice;
* `Merges`, `Merges.joins` — what comes of one collection when another is gone through in any such order and its values
  are added;
* `values_remove`, `values_removeAll` — names that are removed leave all others as they are;
* `laws_of_merges` — **merging and sanitizing**, name by name and whatever the order.
-/

namespace CallLifecycle.Metadata

/-! ## names and their values -/

theorem values_cons (e : Name × Value) (es : List (Name × Value)) (n : Name) :
    values ⟨e :: es⟩ n = (if e.1 = n then [e.2] else []) ++ values ⟨es⟩ n := by
  by_cases same : e.1 = n <;> simp [values, same]

theorem values_concat (es fs : List (Name × Value)) (n : Name) :
    values ⟨es ++ fs⟩ n = values ⟨es⟩ n ++ values ⟨fs⟩ n := by
  simp [values]

theorem values_of_one (vs : List Value) (n k : Name) :
    values ⟨vs.map fun v => (n, v)⟩ k = if n = k then vs else [] := by
  by_cases same : n = k <;> simp [values, List.filter_map, Function.comp_def, same]

theorem names_concat (es : List (Name × Value)) (e : Name × Value) :
    names ⟨es ++ [e]⟩ = if e.1 ∈ names ⟨es⟩ then names ⟨es⟩ else names ⟨es⟩ ++ [e.1] := by
  simp [names, List.foldl_append]

theorem mem_names (m : Metadata) (n : Name) : n ∈ m.names ↔ n ∈ m.entries.map (·.1) := by
  obtain ⟨es⟩ := m
  induction es using List.reverseRecOn with
  | nil => rfl
  | append_singleton es e ih =>
    rw [names_concat, List.map_append, List.mem_append, ← ih, List.map_singleton, List.mem_singleton]
    split
    · rename_i old
      exact ⟨.inl, fun h => h.elim id fun same => same ▸ old⟩
    · rw [List.mem_append, List.mem_singleton]

theorem nodup_names (m : Metadata) : m.names.Nodup := by
  obtain ⟨es⟩ := m
  induction es using List.reverseRecOn with
  | nil => exact List.nodup_nil
  | append_singleton es e ih =>
    rw [names_concat]
    split
    · exact ih
    · rename_i new
      exact List.nodup_append'.mpr ⟨ih, List.nodup_singleton _, by simpa using new⟩

theorem values_of_notMem {m : Metadata} {n : Name} (h : n ∉ m.names) : m.values n = [] := by
  rw [mem_names, List.mem_map] at h
  rw [values, List.map_eq_nil_iff, List.filter_eq_nil_iff]
  exact fun e mem same => h ⟨e, mem, of_decide_eq_true same⟩

theorem contains_iff (m : Metadata) (n : Name) : m.contains n = true ↔ m.values n ≠ [] := by
  simp [contains, values]

theorem agrees_iff (a b : Metadata) : a.agrees b = true ↔ ∀ n, a.values n = b.values n := by
  rw [agrees, List.all_eq_true]
  constructor
  · intro same n
    by_cases mem : n ∈ a.names ++ b.names
    · exact of_decide_eq_true (same n mem)
    · rw [List.mem_append, not_or] at mem
      rw [values_of_notMem mem.1, values_of_notMem mem.2]
  · exact fun same n _ => decide_eq_true (same n)

/-! ## going through a collection -/

/-- Values with their names are a way through a collection: the names come in any order, the values of each name in
theirs. -/
def Walks (es : List (Name × Value)) (m : Metadata) : Prop := ∀ n, values ⟨es⟩ n = m.values n

instance (es : List (Name × Value)) (m : Metadata) : Decidable (Walks es m) :=
  decidable_of_iff _ (agrees_iff ⟨es⟩ m)

theorem values_gather (m : Metadata) {ns : List Name} (nodup : ns.Nodup) (k : Name) :
    values ⟨m.gather ns⟩ k = if k ∈ ns then m.values k else [] := by
  induction ns with
  | nil => rfl
  | cons n ns ih =>
    obtain ⟨new, nodup⟩ := List.nodup_cons.mp nodup
    rw [gather, List.flatMap_cons, values_concat, values_of_one, ← gather, ih nodup]
    by_cases same : n = k
    · subst same
      simp [new]
    · simp [same, Ne.symm same]

theorem walks_grouped (m : Metadata) : Walks m.grouped m := by
  intro n
  rw [grouped, values_gather m m.nodup_names]
  split
  · rfl
  · rename_i absent
    exact (values_of_notMem absent).symm

theorem count_values (m : Metadata) (n : Name) (v : Value) : (m.values n).count v = m.entries.count (n, v) := by
  obtain ⟨es⟩ := m
  induction es with
  | nil => rfl
  | cons e es ih =>
    obtain ⟨k, w⟩ := e
    rw [values_cons, List.count_append, ih, List.count_cons, Nat.add_comm]
    by_cases same : k = n <;> simp [same, List.count_singleton]

theorem Walks.perm {es : List (Name × Value)} {m : Metadata} (h : Walks es m) : es.Perm m.entries := by
  refine List.perm_iff_count.mpr fun ⟨n, v⟩ => ?_
  rw [← count_values m, ← h n, count_values ⟨es⟩]

/-! ## merging -/

/-- `m` is what `a` becomes when the values of `b` are added to it, in one of the orders in which `b` may be gone
through. -/
def Merges (a b m : Metadata) : Prop := ∃ es, Walks es b ∧ a.appendAll es = m

theorem merges_merge (a b : Metadata) : Merges a b (a.merge b) := ⟨b.grouped, b.walks_grouped, rfl⟩

theorem appendAll_cons (m : Metadata) (e : Name × Value) (es : List (Name × Value)) :
    m.appendAll (e :: es) = (m.append e.1 e.2).appendAll es := rfl

theorem values_appendAll (m : Metadata) (es : List (Name × Value)) (n : Name) :
    (m.appendAll es).values n = m.values n ++ values ⟨es⟩ n := by
  induction es generalizing m with
  | nil => exact (List.append_nil _).symm
  | cons e es ih =>
    rw [appendAll_cons, ih, values_append, values_cons, List.append_assoc]

theorem size_appendAll (m : Metadata) (es : List (Name × Value)) : (m.appendAll es).size = m.size + es.length := by
  induction es generalizing m with
  | nil => rfl
  | cons e es ih =>
    rw [appendAll_cons, ih, size_append, List.length_cons]
    omega

/-- A collection holds the values of two others: of each name first those of the one, then those of the other. -/
structure Joins (a b m : Metadata) : Prop where
  values : ∀ n, m.values n = a.values n ++ b.values n
  /-- So it is for keys in any letter case. -/
  read : ∀ key, m.read key = a.read key ++ b.read key
  size : m.size = a.size + b.size

variable {a b m : Metadata}

theorem Merges.joins (h : Merges a b m) : Joins a b m := by
  obtain ⟨es, walks, rfl⟩ := h
  have values (n : Name) : (a.appendAll es).values n = a.values n ++ b.values n := by rw [values_appendAll, walks n]
  refine ⟨values, fun key => ?_, ?_⟩
  · cases is : Name.ofString? key with
    | none => simp [read, is]
    | some n => simpa [read, is] using values n
  · rw [size_appendAll, walks.perm.length_eq]
    rfl

/-! ## sanitizing -/

theorem perm_vacate (n : Name) (ns : List Name) : (vacate n ns).Perm (ns.erase n) := by
  induction ns with
  | nil => exact .nil
  | cons k rest ih =>
    rw [vacate]
    by_cases same : k = n
    · subst same
      rw [if_pos rfl, List.erase_cons_head]
      -- the last name stands in the free place, ahead of the others
      rcases List.eq_nil_or_concat rest with rfl | ⟨init, last, rfl⟩
      · exact .nil
      · rw [List.concat_eq_append, List.getLast?_concat, List.dropLast_concat]
        exact List.perm_append_comm
    · rw [if_neg same, List.erase_cons_tail (by simpa using same)]
      exact ih.cons k

theorem values_remove (m : Metadata) (n k : Name) : (m.remove n).values k = if k = n then [] else m.values k := by
  have perm := perm_vacate n m.names
  have among : k ∈ vacate n m.names ↔ k ≠ n ∧ k ∈ m.names := perm.mem_iff.trans m.nodup_names.mem_erase_iff
  rw [remove, values_gather m (perm.nodup_iff.mpr (m.nodup_names.erase n)), if_congr among rfl rfl]
  by_cases same : k = n
  · simp [same]
  · by_cases mem : k ∈ m.names
    · simp [same, mem]
    · simp [same, mem, values_of_notMem mem]

theorem values_removeAll (m : Metadata) (ns : List Name) (k : Name) :
    (m.removeAll ns).values k = if k ∈ ns then [] else m.values k := by
  induction ns generalizing m with
  | nil => rfl
  | cons n ns ih =>
    have step : m.removeAll (n :: ns) = (m.remove n).removeAll ns := rfl
    rw [step, ih, values_remove]
    by_cases same : k = n <;> simp [same]

/-- A collection is another one without the reserved names, and as that was for every other name. -/
structure Clears (m s : Metadata) : Prop where
  drops : ∀ n ∈ reserved, s.contains n = false
  keeps : ∀ n ∉ reserved, s.values n = m.values n

theorem clears_sanitized (m : Metadata) : Clears m m.sanitized := by
  constructor
  · intro n mem
    rw [← Bool.not_eq_true, contains_iff, sanitized, values_removeAll, if_pos mem]
    exact fun left => left rfl
  · intro n other
    rw [sanitized, values_removeAll, if_neg other]

-- A reserved name is dropped in whatever letter case it was written.
example : (ofList [("Grpc-Status", [48]), ("X-User", [97])]).sanitized = ofList [("x-user", [97])] := by decide

/-! ## the laws -/

/-- **Merging and sanitizing.** Collections are equal just if every name has the same values in both. In whatever order
the values of one collection are added to another: each name has the values of both behind each other, and the numbers
of values add up; three collections become the same in either grouping, and the empty one changes nothing. Sanitizing
drops the reserved names and no others, and it does not matter whether collections are sanitized before or after they
are merged. -/
theorem laws_of_merges (a b c : Metadata) :
    (a.agrees b ↔ ∀ n, a.values n = b.values n) ∧
    Merges a b (a.merge b) ∧
    (∀ m, Merges a b m → Joins a b m) ∧
    (∀ ab bc m m', Merges a b ab → Merges ab c m → Merges b c bc → Merges a bc m' → m.agrees m') ∧
    (∀ m, Merges a {} m ∨ Merges {} a m → m.agrees a) ∧
    Clears a a.sanitized ∧
    (∀ m m', Merges a b m → Merges a.sanitized b.sanitized m' → m.sanitized.agrees m') := by
  refine ⟨agrees_iff a b, merges_merge a b, fun m => Merges.joins, ?_, ?_, clears_sanitized a, ?_⟩
  · intro ab bc m m' first second inner outer
    refine (agrees_iff m m').mpr fun n => ?_
    rw [second.joins.values, first.joins.values, outer.joins.values, inner.joins.values, List.append_assoc]
  · rintro m (behind | ahead) <;> refine (agrees_iff m a).mpr fun n => ?_
    · rw [behind.joins.values, values_empty, List.append_nil]
    · rw [ahead.joins.values, values_empty, List.nil_append]
  · intro m m' plain clean
    refine (agrees_iff m.sanitized m').mpr fun n => ?_
    rw [clean.joins.values]
    simp only [sanitized, values_removeAll, plain.joins.values]
    split <;> rfl

def traced : Metadata := ofList [("X-Trace", [49]), ("te", [48])]

/-- More of the trace, in two spellings and with a remark in between. -/
def continued : Metadata := ofList [("x-trace", [50]), ("x-remark", [51]), ("X-TRACE", [52])]

/-- The same values, gone through with the remark first. -/
def turned : List (Name × Value) := (ofList [("x-remark", [51]), ("x-trace", [50]), ("x-trace", [52])]).entries

def remarked : Metadata := ofList [("X-Remark", [53])]

/-- A trace keeps its order, though a reserved name stands between its parts and what continues it is gone through
another way. -/
theorem laws_of_turned :
    (Merges traced continued (traced.appendAll turned) ∧
      ((traced.appendAll turned).read "x-TRACE").map Value.bytes = [[49], [50], [52]]) ∧
    (Merges (traced.appendAll turned) remarked ((traced.appendAll turned).merge remarked) ∧
      Merges continued remarked (continued.merge remarked) ∧
      Merges traced (continued.merge remarked) (traced.merge (continued.merge remarked)) ∧
      ((traced.appendAll turned).merge remarked).agrees (traced.merge (continued.merge remarked))) ∧
    (Merges {} traced (merge {} traced) ∧ (merge {} traced).agrees traced) ∧
    (Merges traced.sanitized continued.sanitized (traced.sanitized.merge continued.sanitized) ∧
      (traced.appendAll turned).sanitized.agrees (traced.sanitized.merge continued.sanitized)) := by
  have first : Merges traced continued (traced.appendAll turned) := ⟨turned, by decide, rfl⟩
  have second := merges_merge (traced.appendAll turned) remarked
  have inner := merges_merge continued remarked
  have outer := merges_merge traced (continued.merge remarked)
  have all := merges_merge {} traced
  have clean := merges_merge traced.sanitized continued.sanitized
  obtain ⟨-, -, joins, groups, unchanged, -, commutes⟩ := laws_of_merges traced continued remarked
  refine ⟨⟨first, ?_⟩, ⟨second, inner, outer, groups _ _ _ _ first second inner outer⟩,
    ⟨all, unchanged _ (.inr all)⟩, clean, commutes _ _ first clean⟩
  rw [(joins _ first).read]
  decide

end CallLifecycle.Metadata
