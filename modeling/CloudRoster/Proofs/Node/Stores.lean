import CloudRoster.Proofs.Node.Changes

/-!
# The stores of a node

Groups and templates have a store each, other kinds have none. Telling the store of a change touches
the store of its kind and nothing else.
-/

namespace CloudRoster.Node

open Storage (Directory Order Store)

variable {n : Node} {k : Kind} {s : Store}

theorem store?_setStore_self {old : Store} (h : n.store? k = some old) (s : Store) :
    (n.setStore k s).store? k = some s := by
  cases k with
  | group => rfl
  | template => rfl
  | player | wrapper | service => cases h

theorem store?_setStore_of_ne {j : Kind} (h : j ≠ k) (s : Store) :
    (n.setStore k s).store? j = n.store? j := by
  cases k <;> cases j <;> first | rfl | exact absurd rfl h

/-- A result that does not tell of a value that cannot be written is that of a change that the lists
kept. -/
theorem keptLocally_of_written {result : Except SyncError Unit}
    (h : ∀ reason, result ≠ .error (.serialization reason)) : keptLocally result = true := by
  unfold keptLocally
  split
  · exact absurd rfl (h _)
  · rfl

/-- A store that is told of a change. -/
def heed (s : Store) (c : Change) : Store × Except SyncError Unit :=
  s.obey (orderOf c.action) ⟨c.kind, c.value⟩

/-- `Node.persist` tells the store of a managed change that the lists kept. -/
theorem persist_of_store {c : Change} {result : Except SyncError Unit}
    (hmanaged : c.managed = true) (hkept : keptLocally result = true)
    (hstore : n.store? c.kind = some s) :
    n.persist c result =
      (n.setStore c.kind (heed s c).1, (heed s c).2.bind fun () => result) := by
  have hfor : n.storeFor? c result = some s := by
    unfold storeFor?
    rw [hmanaged, hkept]
    exact hstore
  unfold persist
  rw [hfor]
  rfl

theorem persist_of_no_store {c : Change} (hstore : n.store? c.kind = none)
    (result : Except SyncError Unit) : n.persist c result = (n, result) := by
  have hfor : n.storeFor? c result = none := by
    unfold storeFor?
    split
    · exact hstore
    · rfl
  unfold persist
  rw [hfor]

/-- `Node.persist` does nothing for a change that is not managed, or that the lists did not keep. -/
theorem persist_of_untold {c : Change} {result : Except SyncError Unit}
    (h : (c.managed && keptLocally result) = false) : n.persist c result = (n, result) := by
  have hfor : n.storeFor? c result = none := by
    unfold storeFor?
    rw [h]
    rfl
  unfold persist
  rw [hfor]

/-- What telling the store of a change leaves in the stores. -/
theorem store?_persist (n : Node) (c : Change) (result : Except SyncError Unit) (j : Kind) :
    (n.persist c result).1.store? j =
      if j = c.kind ∧ (c.managed && keptLocally result) = true
      then (n.store? j).map fun s => (heed s c).1 else n.store? j := by
  by_cases htold : (c.managed && keptLocally result) = true
  · obtain ⟨hmanaged, hkept⟩ := (Bool.and_eq_true _ _).mp htold
    cases hstore : n.store? c.kind with
    | none =>
      rw [persist_of_no_store hstore]
      split
      · rename_i h
        rw [h.1, hstore]
        rfl
      · rfl
    | some s =>
      rw [persist_of_store hmanaged hkept hstore]
      by_cases hj : j = c.kind
      · rw [if_pos ⟨hj, htold⟩, hj, hstore]
        exact store?_setStore_self hstore _
      · rw [if_neg fun h => hj h.1]
        exact store?_setStore_of_ne hj _
  · rw [persist_of_untold (Bool.not_eq_true _ ▸ htold), if_neg fun h => htold h.2]

/-! ## Directories of stores -/

/-- The directory that the store of a kind keeps its values in, if there is one. -/
def files (n : Node) (k : Kind) : Option Directory := (n.store? k).bind (·.directory)

/-- The order that a change gives, in a directory. -/
def carriedOut (d : Directory) (c : Change) : Except SyncError Directory :=
  d.obey c.kind c.value (orderOf c.action)

/-- A store carries out an order in its directory; one that is refused leaves it as it is. -/
theorem directory_heed (s : Store) (c : Change) :
    (heed s c).1.directory = s.directory.map fun d => (carriedOut d c).toOption.getD d := by
  unfold heed Store.obey carriedOut
  simp only
  cases s.directory with
  | none => rfl
  | some d =>
    simp only [Option.map_some]
    cases d.obey c.kind c.value (orderOf c.action) with
    | ok d' => rfl
    | error e => rfl

theorem heed_result (s : Store) (c : Change) :
    (heed s c).2 = s.directory.elim (.ok ()) fun d => (carriedOut d c).map fun _ => () := by
  unfold heed Store.obey carriedOut
  simp only
  cases s.directory with
  | none => rfl
  | some d =>
    simp only [Option.elim_some]
    cases d.obey c.kind c.value (orderOf c.action) <;> rfl

/-- What telling the store of a change leaves in the directories. -/
theorem files_persist (n : Node) (c : Change) (result : Except SyncError Unit) (j : Kind) :
    (n.persist c result).1.files j =
      if j = c.kind ∧ (c.managed && keptLocally result) = true
      then (n.files j).map fun d => (carriedOut d c).toOption.getD d else n.files j := by
  unfold files
  rw [store?_persist]
  split
  · cases n.store? j with
    | none => rfl
    | some s => exact directory_heed s c
  · rfl

/-- What telling the store of a change that the lists kept comes to. -/
theorem result_persist {c : Change} {result : Except SyncError Unit}
    (htold : (c.managed && keptLocally result) = true) :
    (n.persist c result).2 = (n.files c.kind).elim result fun d =>
      (carriedOut d c).bind fun _ => result := by
  obtain ⟨hmanaged, hkept⟩ := (Bool.and_eq_true _ _).mp htold
  unfold files
  cases hstore : n.store? c.kind with
  | none =>
    rw [persist_of_no_store hstore]
    rfl
  | some s =>
    rw [persist_of_store hmanaged hkept hstore, heed_result, Option.bind_some]
    cases s.directory with
    | none => rfl
    | some d =>
      simp only [Option.elim_some]
      cases carriedOut d c <;> rfl

end CloudRoster.Node
