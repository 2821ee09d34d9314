import CloudRoster.Node.Basic

/-!
# What stores refuse

A store that does not carry out an order fails in one way only, whatever the order and whatever its
directory is. So the result of a change is that of its rounds, or tells of the store.
-/

namespace CloudRoster

namespace Storage

theorem fileName_error {key : String} {e : SyncError} (h : fileName key = .error e) :
    ∃ reason, e = .persistence reason := by
  unfold fileName at h
  simp only at h
  split at h
  · cases h
    exact ⟨_, rfl⟩
  · cases h

theorem Directory.obey_error {d : Directory} {k : Kind} {v : k.Val} {order : Order} {e : SyncError}
    (h : d.obey k v order = .error e) : ∃ reason, e = .persistence reason := by
  cases hname : fileName (k.keyText (k.key v)) with
  | error e' =>
    have he : e = e' := by
      cases order <;>
        simp only [obey, save, discard, hname, bind, Except.bind, Except.error.injEq] at h <;>
        exact h.symm
    rw [he]
    exact fileName_error hname
  | ok name =>
    have hfailed : ∃ f, e = failure d name f := by
      cases order with
      | save =>
        simp only [obey, save, hname, bind, Except.bind] at h
        cases hwrite : d.write name (k.codec.write v).indented.toUTF8 with
        | ok d' =>
          rw [hwrite] at h
          cases h
        | error f =>
          rw [hwrite] at h
          cases h
          exact ⟨f, rfl⟩
      | remove =>
        simp only [obey, discard, hname, bind, Except.bind] at h
        split at h
        · cases h
        · cases h
        · cases h
          exact ⟨_, rfl⟩
    obtain ⟨f, rfl⟩ := hfailed
    exact ⟨_, rfl⟩

theorem Store.obey_error {s : Store} {order : Order} {v : Value} {e : SyncError}
    (h : (s.obey order v).2 = .error e) : ∃ reason, e = .persistence reason := by
  unfold obey at h
  simp only at h
  split at h
  · cases h
  · split at h
    · cases h
    · cases h
      exact Directory.obey_error ‹_›

end Storage

/-- A change ends with the result of its rounds, or with the failure of its store. -/
theorem Node.persist_result (n : Node) (c : Change) (result : Except SyncError Unit) :
    (n.persist c result).2 = result ∨
      ∃ reason, (n.persist c result).2 = .error (.persistence reason) := by
  unfold persist
  cases hstore : n.storeFor? c result with
  | none => exact .inl rfl
  | some s =>
    cases hobey : (s.obey (orderOf c.action) ⟨c.kind, c.value⟩).2 with
    | ok u =>
      left
      simp only [hobey]
      rfl
    | error e =>
      right
      obtain ⟨reason, rfl⟩ := Storage.Store.obey_error hobey
      simp only [hobey]
      exact ⟨reason, rfl⟩

end CloudRoster
