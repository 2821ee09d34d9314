import CloudRoster.Proofs.Cache.OrderedMap
import CloudRoster.Proofs.Node.Rounds

/-!
# Meshes of nodes

A mesh is a world in which every node is connected once to every other one. A local change of a list
that all nodes share runs over the mesh as a whole: each node does to its entries what the first one
did, no peer answers with an error, and no other node hands a message on (`Mesh.perform`). Lists
that are the same everywhere so stay the same everywhere, over any run of operations (`agrees_run`).
-/

namespace CloudRoster

open Cache (Entries Rules)

namespace Lists

theorem set_set (l : Lists) (k : Kind) (es es' : Entries k.Key k.Val) :
    (l.set k es).set k es' = l.set k es' := by
  cases k <;> rfl

theorem set_get (l : Lists) (k : Kind) : l.set k (l.get k) = l := by cases k <;> rfl

end Lists

/-! ## Nodes of a mesh -/

namespace Node

/-- All lists are open, and there are no stores. -/
structure Bare (n : Node) : Prop where
  isOpen : ∀ k : Kind, n.registry.find? k.listName = some k
  groupStore : n.groupStore = none
  templateStore : n.templateStore = none

/-- What a bare node makes of the message about a value, unless it holds the change back. -/
theorem Bare.receive {n : Node} (h : n.Bare) {k : Kind} {v : k.Val} {action : Action}
    (hguard : n.guard (.asked k v action) = .ok ()) :
    ∃ bus, n.receive (.cacheUpdate (.about k v action)) = ({ n with
      lists := n.lists.set k ((Change.asked k v action).applyTo (n.lists.get k))
      bus := bus }, .ack) := by
  obtain ⟨bus, hcommit⟩ := commit_of_guard hguard
  refine ⟨bus, ?_⟩
  rw [receive_about (h.isOpen k)]
  unfold carryOut
  rw [hcommit]
  have hpersist := persist_of_no_stores
    (n := { n with
      lists := n.lists.set k ((Change.asked k v action).applyTo (n.lists.get k)), bus := bus })
    h.groupStore h.templateStore (.asked k v action) (.ok ())
  simp only [hpersist]
  rfl

/-- Whether a change for a peer is held back depends on the services alone, and a change of another
list leaves them as they are. -/
theorem guard_asked_set (n : Node) (k : Kind) (es : Entries k.Key k.Val) (bus : Cache.Bus)
    (v : k.Val) (action : Action) :
    Node.guard { n with lists := n.lists.set k es, bus := bus } (.asked k v action) =
      n.guard (.asked k v action) := by
  cases k <;> cases action <;> rfl

end Node

namespace World

/-- Every node is bare and tidy and is connected once to every other one. -/
structure Mesh (w : World) : Prop where
  tidy : w.Tidy
  bare : ∀ n ∈ w, n.Bare
  connected : ∀ i n, w[i]? = some n → ∃ peers, n.broadcaster = .loopback peers ∧
    (peers.map (·.2)).Nodup ∧ ∀ j, (∃ p ∈ peers, p.2 = j) ↔ j < w.length ∧ j ≠ i

/-! ## Messages that run over the mesh -/

/-- The entries of a peer after messages about a value. -/
def told (k : Kind) (v : k.Val) (actions : List Action) (es : Entries k.Key k.Val) :
    Entries k.Key k.Val :=
  actions.foldl (fun es action => (Change.asked k v action).applyTo es) es

/-- A message that no other node holds back is received once by every other node, and acknowledged
by all. -/
theorem exchange_about {i : Nat} {peers : List (String × Nat)} {k : Kind} {v : k.Val}
    {action : Action} (hnodup : (peers.map (·.2)).Nodup) {w : World}
    (hall : ∀ j, (∃ p ∈ peers, p.2 = j) ↔ j < w.length ∧ j ≠ i)
    (hbare : ∀ j x, j ≠ i → w[j]? = some x → x.Bare)
    (hguard : ∀ j x, j ≠ i → w[j]? = some x → x.guard (.asked k v action) = .ok ()) :
    AllSucceed (w.exchange (.cacheUpdate (.about k v action)) peers).2 ∧
      ∀ j x, j ≠ i → w[j]? = some x → ∃ bus,
        (w.exchange (.cacheUpdate (.about k v action)) peers).1[j]? = some { x with
          lists := x.lists.set k ((Change.asked k v action).applyTo (x.lists.get k))
          bus := bus } := by
  refine ⟨?_, ?_⟩
  · rintro ⟨j, reply⟩ hreply
    obtain ⟨hpeer, rfl⟩ := reply_of_nodup hnodup hreply
    obtain ⟨hlt, hj⟩ := (hall j).1 hpeer
    have hx : w[j]? = some w[j] := List.getElem?_eq_getElem hlt
    obtain ⟨bus, hreceive⟩ := (hbare j _ hj hx).receive (hguard j _ hj hx)
    rw [receive_of_some hx, hreceive]
    rfl
  · intro j x hj hx
    obtain ⟨hlt, -⟩ := List.getElem?_eq_some_iff.1 hx
    obtain ⟨bus, hreceive⟩ := (hbare j x hj hx).receive (hguard j x hj hx)
    refine ⟨bus, ?_⟩
    rw [getElem?_exchange_of_nodup hnodup ((hall j).2 ⟨hlt, hj⟩) hx, hreceive]

/-- Messages that no other node holds back arrive everywhere, and are acknowledged everywhere. -/
theorem spread_about {i : Nat} {before n : Node} {peers : List (String × Nat)} {k : Kind}
    {v : k.Val} (hpeers : n.broadcaster = .loopback peers) (hnodup : (peers.map (·.2)).Nodup)
    (c : Change) (actions : List Action) {w : World} (hnode : w[i]? = some before)
    (hall : ∀ j, (∃ p ∈ peers, p.2 = j) ↔ j < w.length ∧ j ≠ i)
    (hbare : ∀ j x, j ≠ i → w[j]? = some x → x.Bare)
    (hguard : ∀ action ∈ actions, ∀ j x, j ≠ i → w[j]? = some x →
      x.guard (.asked k v action) = .ok ()) :
    ∃ (w' : World) (handed : List Message),
      spread i c (w.update i n) (actions.map (CacheUpdate.about k v)) =
        (w'.update i { n with handed := handed }, .ok ()) ∧ w'.length = w.length ∧
      w'[i]? = some before ∧
      ∀ j x, j ≠ i → w[j]? = some x → ∃ bus, w'[j]? = some { x with
        lists := x.lists.set k (told k v actions (x.lists.get k)), bus := bus } := by
  -- each round leaves nodes behind that are bare and hold back as much as before, so that the next
  -- message meets what the first one met
  induction actions generalizing w n with
  | nil =>
    refine ⟨w, n.handed, rfl, rfl, hnode, ?_⟩
    intro j x hj hx
    refine ⟨x.bus, ?_⟩
    rw [hx]
    show some x = some { x with lists := x.lists.set k (x.lists.get k) }
    rw [Lists.set_get]
  | cons action actions ih =>
    have hother : ∀ p ∈ peers, p.2 ≠ i := fun p hp => ((hall p.2).1 ⟨p, hp, rfl⟩).2
    let m : Message := .cacheUpdate (.about k v action)
    obtain ⟨hsucceed, hreceived⟩ :=
      exchange_about hnodup hall hbare (hguard action List.mem_cons_self)
    have hkept : (w.exchange m peers).1[i]? = some before :=
      (getElem?_exchange_of_ne m hother w).trans hnode
    -- what is known of a node after the round goes back to what it was before
    have hback : ∀ j y, j ≠ i → (w.exchange m peers).1[j]? = some y → ∃ x bus, w[j]? = some x ∧
        y = { x with
          lists := x.lists.set k ((Change.asked k v action).applyTo (x.lists.get k))
          bus := bus } := by
      intro j y hj hy
      obtain ⟨hlt, -⟩ := List.getElem?_eq_some_iff.1 hy
      rw [length_exchange] at hlt
      have hx : w[j]? = some w[j] := List.getElem?_eq_getElem hlt
      obtain ⟨bus, hy'⟩ := hreceived j _ hj hx
      exact ⟨w[j], bus, hx, Option.some.inj (hy.symm.trans hy')⟩
    have hbare' : ∀ j y, j ≠ i → (w.exchange m peers).1[j]? = some y → y.Bare := by
      intro j y hj hy
      obtain ⟨x, bus, hx, rfl⟩ := hback j y hj hy
      obtain ⟨hopen, hgroups, htemplates⟩ := hbare j x hj hx
      exact ⟨hopen, hgroups, htemplates⟩
    have hguard' : ∀ a ∈ actions, ∀ j y, j ≠ i → (w.exchange m peers).1[j]? = some y →
        y.guard (.asked k v a) = .ok () := by
      intro a ha j y hj hy
      obtain ⟨x, bus, hx, rfl⟩ := hback j y hj hy
      rw [Node.guard_asked_set]
      exact hguard a (List.mem_cons_of_mem _ ha) j x hj hx
    have hall' : ∀ j, (∃ p ∈ peers, p.2 = j) ↔ j < (w.exchange m peers).1.length ∧ j ≠ i := by
      rw [length_exchange]
      exact hall
    obtain ⟨w', handed, hspread, hlength, hi, hothers⟩ :=
      ih (n := n.hand m) hpeers hkept hall' hbare' hguard'
    refine ⟨w', handed, ?_, hlength.trans (length_exchange m peers w), hi, ?_⟩
    · rw [List.map_cons]
      exact ((spread_cons hnode hpeers hother c _ _).1 hsucceed).trans hspread
    · intro j x hj hx
      obtain ⟨bus, hy⟩ := hreceived j x hj hx
      obtain ⟨bus', hz⟩ := hothers j _ hj hy
      refine ⟨bus', ?_⟩
      rw [hz]
      simp only [Lists.set_set, Lists.get_set_self]
      rfl

/-! ## One change -/

/-- The messages of a local change of a list that spreads. -/
theorem outbox_eq_map {n : Node} {k : Kind} (hspreads : n.spreads k = true) (v : k.Val)
    (action : Action) (managed : Bool) :
    ∃ actions, n.outbox ⟨k, v, action, false, managed⟩ = actions.map (CacheUpdate.about k v) ∧
      (∀ a ∈ actions, a = .update ∨ a = action) ∧
      told k v actions (n.lists.get k) = (Change.asked k v action).applyTo (n.lists.get k) := by
  unfold Node.outbox Node.cached
  simp only [hspreads]
  cases action with
  | update => exact ⟨[.update], rfl, by simp, rfl⟩
  | delete =>
    cases hfind : (n.lists.get k).find? (k.key v) with
    | none =>
      refine ⟨[], rfl, by simp, ?_⟩
      exact (Entries.erase_of_find?_eq_none hfind).symm
    | some old =>
      refine ⟨[.update, .delete], rfl, by simp, ?_⟩
      -- the final state takes the place of the value before both are taken away
      show Entries.erase (if (Entries.find? (n.lists.get k) (k.key v)).isSome
        then Entries.replace (n.lists.get k) (k.key v) v
        else Entries.push (n.lists.get k) (k.key v) v) (k.key v) = Entries.erase _ (k.key v)
      rw [if_pos (by rw [hfind]; rfl), Entries.erase_replace]

/-- A local change of a list that spreads and that is the same on all nodes of a mesh changes it on
all nodes alike, and succeeds. -/
theorem Mesh.perform {w : World} (h : w.Mesh) {i : Nat} {n : Node} (hnode : w[i]? = some n)
    {k : Kind} (v : k.Val) (action : Action) (managed : Bool) (hspreads : n.spreads k = true)
    (hsame : ∀ x ∈ w, x.lists.get k = n.lists.get k)
    (hguard : n.guard ⟨k, v, action, false, managed⟩ = .ok ())
    (hguards : ∀ x ∈ w, x.guard (.asked k v action) = .ok ()) :
    ∃ w' : World, w.perform i ⟨k, v, action, false, managed⟩ = (w', .ok ()) ∧
      w'.length = w.length ∧ ∀ j x, w[j]? = some x → ∃ bus handed, (j ≠ i → handed = x.handed) ∧
        w'[j]? = some { x with
          lists := x.lists.set k ((Change.asked k v action).applyTo (x.lists.get k))
          bus := bus
          handed := handed } := by
  obtain ⟨actions, houtbox, hactions, htold⟩ := outbox_eq_map hspreads v action managed
  obtain ⟨peers, hpeers, hnodup, hall⟩ := h.connected i n hnode
  obtain ⟨bus, hcommit⟩ := Node.commit_of_guard hguard
  rw [houtbox] at hcommit
  let changed : Node := { n with
    lists := n.lists.set k ((Change.asked k v action).applyTo (n.lists.get k)), bus := bus }
  have hbare : ∀ j x, j ≠ i → w[j]? = some x → x.Bare :=
    fun j x _ hx => h.bare x (List.mem_of_getElem? hx)
  have hheld : ∀ a ∈ actions, ∀ j x, j ≠ i → w[j]? = some x → x.guard (.asked k v a) = .ok () := by
    intro a ha j x _ hx
    rcases hactions a ha with rfl | rfl
    · cases k <;> rfl
    · exact hguards x (List.mem_of_getElem? hx)
  obtain ⟨w', handed, hspread, hlength, hi, hothers⟩ := spread_about (n := changed) hpeers hnodup
    ⟨k, v, action, false, managed⟩ actions hnode hall hbare hheld
  have hlast := getElem?_update_self hi { changed with handed := handed }
  have hcommit : n.commit ⟨k, v, action, false, managed⟩ =
      .ok (changed, actions.map (CacheUpdate.about k v)) := hcommit
  have hbareNode := h.bare n (List.mem_of_getElem? hnode)
  have hperform := perform_of_commit hnode hcommit (by rw [hspread]; exact hlast)
  rw [hspread, Node.persist_of_no_stores (n := { changed with handed := handed })
    hbareNode.groupStore hbareNode.templateStore, update_update] at hperform
  refine ⟨_, hperform, (List.length_set ..).trans hlength, ?_⟩
  intro j x hx
  by_cases hj : j = i
  · subst hj
    rw [hnode] at hx
    cases hx
    exact ⟨bus, handed, fun hne => absurd rfl hne, hlast⟩
  · obtain ⟨bus', hx'⟩ := hothers j x hj hx
    refine ⟨bus', x.handed, fun _ => rfl, ?_⟩
    rw [getElem?_update_of_ne _ hj, hx', hsame x (List.mem_of_getElem? hx), htold]

end World

/-! ## Operations on a mesh -/

/-- A local operation on a list of a node. -/
inductive LocalOp where
  /-- A managed update of a value. -/
  | update (k : Kind) (v : k.Val)
  /-- A managed removal of a value. -/
  | delete (k : Kind) (v : k.Val)
  /-- Brings staged changes in. -/
  | apply (k : Kind) (u : k.Updater)
  | deleteTemplate (name : String)

/-- The kind of the list that an operation is on. -/
def LocalOp.kind : LocalOp → Kind
  | update k _ | delete k _ | apply k _ => k
  | deleteTemplate _ => .template

namespace Node

/-- Whether a change is held back depends on the services alone. -/
theorem guard_congr {n x : Node} (h : x.values .service = n.values .service) (c : Change) :
    x.guard c = n.guard c := by
  unfold guard servicesOfGroup
  rw [h]

/-- `Node.guard` holds a managed change back whether it comes from a peer or not. -/
theorem guard_asked (n : Node) (k : Kind) (v : k.Val) (action : Action) (fromPacket : Bool) :
    n.guard (.asked k v action) = n.guard ⟨k, v, action, fromPacket, true⟩ := by
  cases k <;> cases action <;> rfl

theorem guard_update (n : Node) (k : Kind) (v : k.Val) (fromPacket managed : Bool) :
    n.guard ⟨k, v, .update, fromPacket, managed⟩ = .ok () := by
  cases k <;> rfl

end Node

namespace World

/-- Carries out an operation from beginning to end. -/
def act (w : World) (i : Nat) : LocalOp → World × Except SyncError Unit
  | .update k v => w.perform i ⟨k, v, .update, false, true⟩
  | .delete k v => w.perform i ⟨k, v, .delete, false, true⟩
  | .apply k u => w.apply i k u
  | .deleteTemplate name => w.deleteTemplate i name

/-- Carries out operations one after another, each on a node of its own. -/
def runOps (w : World) (ops : List (Nat × LocalOp)) : World :=
  ops.foldl (fun w op => (w.act op.1 op.2).1) w

/-- An operation has nothing to do, or is a local change of its list; a removal is managed. -/
theorem act_eq (w : World) (i : Nat) (op : LocalOp) :
    w.act i op = (w, .ok ()) ∨ ∃ n v action managed, w[i]? = some n ∧
      (action = .delete → managed = true) ∧
      w.act i op = w.perform i ⟨op.kind, v, action, false, managed⟩ := by
  cases hnode : w[i]? with
  | none =>
    left
    cases op <;> simp only [act, apply, deleteTemplate, perform, hnode]
  | some n =>
    cases op with
    | update k v => exact .inr ⟨n, v, .update, true, rfl, nofun, rfl⟩
    | delete k v => exact .inr ⟨n, v, .delete, true, rfl, fun _ => rfl, rfl⟩
    | apply k u => exact .inr ⟨n, k.merge u, .update, false, rfl, nofun, rfl⟩
    | deleteTemplate name =>
      simp only [act, deleteTemplate, hnode]
      cases n.lists.templates.find? (.ofName name) with
      | none => exact .inl rfl
      | some t => exact .inr ⟨n, t, .delete, true, rfl, fun _ => rfl, rfl⟩

/-- The kinds of lists that are told of: all but the players, or all. -/
def Covers (players : Bool) (k : Kind) : Prop := k ≠ .player ∨ players = true

/-- All nodes hold the same values in the same order. -/
def Agrees (players : Bool) (w : World) : Prop :=
  ∀ k, Covers players k → ∀ n ∈ w, ∀ x ∈ w, x.values k = n.values k

/-- A mesh whose nodes hold the same values; the players belong to them only if there is no
manager. -/
structure Replicated (players : Bool) (w : World) : Prop where
  mesh : w.Mesh
  roles : players = true → ∀ n ∈ w, n.config.role ≠ .manager
  agrees : Agrees players w

variable {players : Bool} {w : World}

theorem Replicated.spreads (h : Replicated players w) {n : Node} (hn : n ∈ w) {k : Kind}
    (hk : Covers players k) : n.spreads k = true := by
  unfold Node.spreads
  rcases hk with hk | hplayers
  · simp [hk]
  · simp [h.roles hplayers n hn]

/-- Tidy lists of the same values have the same entries. -/
theorem Replicated.entries_eq (h : Replicated players w) {n x : Node} (hn : n ∈ w) (hx : x ∈ w)
    {k : Kind} (hk : Covers players k) : x.lists.get k = n.lists.get k := by
  have hvalues : (x.lists.get k).values = (n.lists.get k).values := h.agrees k hk n hn x hx
  rw [(h.mesh.tidy x hx k).eq_keyedBy, (h.mesh.tidy n hn k).eq_keyedBy, hvalues]

/-- What has changed on all nodes alike leaves a mesh of nodes that agree. -/
theorem Replicated.change (h : Replicated players w) {w' : World} (htidy : w'.Tidy)
    (hlength : w'.length = w.length) {k : Kind} (hk : Covers players k)
    (f : Entries k.Key k.Val → Entries k.Key k.Val)
    (hnodes : ∀ (j : Nat) (x : Node), w[j]? = some x → ∃ bus handed, w'[j]? =
      some { x with lists := x.lists.set k (f (x.lists.get k)), bus := bus, handed := handed }) :
    Replicated players w' := by
  have hback : ∀ (j : Nat) (y : Node), w'[j]? = some y → ∃ x bus handed, w[j]? = some x ∧
      y = { x with lists := x.lists.set k (f (x.lists.get k)), bus := bus, handed := handed } := by
    intro j y hy
    obtain ⟨hlt, -⟩ := List.getElem?_eq_some_iff.1 hy
    have hx : w[j]? = some w[j] := List.getElem?_eq_getElem (hlength ▸ hlt)
    obtain ⟨bus, handed, hy'⟩ := hnodes j _ hx
    exact ⟨w[j], bus, handed, hx, Option.some.inj (hy.symm.trans hy')⟩
  refine ⟨⟨htidy, ?_, ?_⟩, ?_, ?_⟩
  · intro y hy
    obtain ⟨j, hy⟩ := List.mem_iff_getElem?.1 hy
    obtain ⟨x, bus, handed, hx, rfl⟩ := hback j y hy
    obtain ⟨hopen, hgroups, htemplates⟩ := h.mesh.bare x (List.mem_of_getElem? hx)
    exact ⟨hopen, hgroups, htemplates⟩
  · intro i y hy
    obtain ⟨x, bus, handed, hx, rfl⟩ := hback i y hy
    rw [hlength]
    exact h.mesh.connected i x hx
  · intro hplayers y hy
    obtain ⟨j, hy⟩ := List.mem_iff_getElem?.1 hy
    obtain ⟨x, bus, handed, hx, rfl⟩ := hback j y hy
    exact h.roles hplayers x (List.mem_of_getElem? hx)
  · intro l hl y hy z hz
    obtain ⟨j, hy⟩ := List.mem_iff_getElem?.1 hy
    obtain ⟨j', hz⟩ := List.mem_iff_getElem?.1 hz
    obtain ⟨x, bus, handed, hx, rfl⟩ := hback j y hy
    obtain ⟨x', bus', handed', hx', rfl⟩ := hback j' z hz
    have hmem := List.mem_of_getElem? hx
    have hmem' := List.mem_of_getElem? hx'
    unfold Node.values
    by_cases hlk : l = k
    · subst hlk
      rw [Lists.get_set_self, Lists.get_set_self, h.entries_eq hmem hmem' hl]
    · rw [Lists.get_set_of_ne _ hlk, Lists.get_set_of_ne _ hlk, h.entries_eq hmem hmem' hl]

/-- One operation on a mesh whose nodes agree: they agree afterwards, the operation succeeds or is
refused for the services of a group with all nodes as they were, and no other node hands anything
out. -/
theorem Replicated.act (h : Replicated players w) (i : Nat) {op : LocalOp}
    (hop : Covers players op.kind) :
    Replicated players (w.act i op).1 ∧
      ((w.act i op).2 = .ok () ∨
        (∃ name services, (w.act i op).2 = .error (.groupInUse name services)) ∧
          (w.act i op).1 = w) ∧
      ∀ (j : Nat) (x : Node), j ≠ i → w[j]? = some x →
        ∃ x', (w.act i op).1[j]? = some x' ∧ x'.handed = x.handed := by
  rcases w.act_eq i op with heq | ⟨n, v, action, managed, hnode, hmanaged, heq⟩
  · rw [heq]
    exact ⟨h, .inl rfl, fun j x _ hx => ⟨x, hx, rfl⟩⟩
  · rw [heq]
    have hn := List.mem_of_getElem? hnode
    cases hguard : n.guard ⟨op.kind, v, action, false, managed⟩ with
    | error e =>
      obtain ⟨name, services, rfl⟩ := Node.guard_error hguard
      have hrefused : w.perform i ⟨op.kind, v, action, false, managed⟩ =
          (w, .error (.groupInUse name services)) := by
        unfold perform
        simp only [hnode, Node.commit_of_guard_error hguard]
      rw [hrefused]
      exact ⟨h, .inr ⟨⟨name, services, rfl⟩, rfl⟩, fun j x _ hx => ⟨x, hx, rfl⟩⟩
    | ok u =>
      -- the nodes hold the same services, so none of them holds the change back
      have hguards : ∀ x ∈ w, x.guard (.asked op.kind v action) = .ok () := by
        intro x hx
        cases action with
        | update => exact x.guard_update op.kind v true true
        | delete =>
          have hservices := h.agrees .service (.inl nofun) n hn x hx
          rw [Node.guard_congr hservices, n.guard_asked op.kind v .delete false, ← hmanaged rfl]
          exact hguard
      obtain ⟨w', hperform, hlength, hnodes⟩ := h.mesh.perform hnode v action managed
        (h.spreads hn hop) (fun x hx => h.entries_eq hn hx hop) hguard hguards
      rw [hperform]
      have htidy : w'.Tidy := by
        have hall := h.mesh.tidy.perform i ⟨op.kind, v, action, false, managed⟩
        rw [hperform] at hall
        exact hall
      refine ⟨h.change htidy hlength hop (Change.asked op.kind v action).applyTo ?_, .inl rfl, ?_⟩
      · intro j x hx
        obtain ⟨bus, handed, -, hx'⟩ := hnodes j x hx
        exact ⟨bus, handed, hx'⟩
      · intro j x hj hx
        obtain ⟨bus, handed, hsame, hx'⟩ := hnodes j x hx
        exact ⟨_, hx', hsame hj⟩

theorem Replicated.runOps (h : Replicated players w) (ops : List (Nat × LocalOp))
    (hops : ∀ op ∈ ops, Covers players op.2.kind) : Replicated players (w.runOps ops) := by
  induction ops generalizing w with
  | nil => exact h
  | cons op ops ih =>
    exact ih (h.act op.1 (hops op List.mem_cons_self)).1
      fun op hop => hops op (List.mem_cons_of_mem _ hop)

/-- Nodes of a mesh that hold the same groups, templates, wrappers and services in the same order
hold the same ones after every operation of every run. Every operation succeeds, or is refused
because a group has services and then changes no node, and only the node that it is started on hands
messages to its broadcaster. Where no node is a manager all this is so of the players, too. -/
theorem agrees_run (hmesh : w.Mesh) (hroles : players = true → ∀ n ∈ w, n.config.role ≠ .manager)
    (hagrees : Agrees players w) (ops : List (Nat × LocalOp))
    (hops : ∀ op ∈ ops, Covers players op.2.kind) (i : Nat) (op : LocalOp)
    (hop : Covers players op.kind) :
    let before := w.runOps ops
    let after := (before.act i op).1
    Agrees players before ∧ Agrees players after ∧
      ((before.act i op).2 = .ok () ∨
        (∃ name services, (before.act i op).2 = .error (.groupInUse name services)) ∧
          after = before) ∧
      ∀ (j : Nat) (x : Node), j ≠ i → before[j]? = some x →
        ∃ x', after[j]? = some x' ∧ x'.handed = x.handed := by
  intro before after
  have hbefore : Replicated players before :=
    Replicated.runOps ⟨hmesh, hroles, hagrees⟩ ops hops
  obtain ⟨hafter, hresult, hothers⟩ := hbefore.act i hop
  exact ⟨hbefore.agrees, hafter.agrees, hresult, hothers⟩

namespace Trio

/-- A node of a role without stores, with peers. -/
def member (role : Role) (peers : List (String × Nat)) : Node :=
  .new { SyncConfig.standard with role := role } (.loopback peers) none none

/-- A manager, a wrapper and a service, each connected to the other two. -/
def world : World :=
  [member .manager [("wrapper", 1), ("service", 2)],
    member .wrapper [("service", 2), ("manager", 0)],
    member .service [("manager", 0), ("wrapper", 1)]]

theorem mem_world {n : Node} (hn : n ∈ world) : ∃ role peers, n = member role peers := by
  simp only [world, List.mem_cons, List.not_mem_nil, or_false] at hn
  rcases hn with rfl | rfl | rfl <;> exact ⟨_, _, rfl⟩

theorem mesh : world.Mesh := by
  refine ⟨?_, ?_, ?_⟩
  · intro n hn
    obtain ⟨role, peers, rfl⟩ := mem_world hn
    exact Node.tidy_new _ _ _ _
  · intro n hn
    obtain ⟨role, peers, rfl⟩ := mem_world hn
    exact ⟨Node.find?_registry_new _ _ _ _, rfl, rfl⟩
  · intro i n hnode
    match i, hnode with
    | 0, hnode =>
      cases hnode
      refine ⟨_, rfl, by decide, fun j => ?_⟩
      show _ ↔ j < 3 ∧ j ≠ 0
      simp only [List.mem_cons, List.not_mem_nil, or_false, exists_eq_or_imp, exists_eq_left]
      omega
    | 1, hnode =>
      cases hnode
      refine ⟨_, rfl, by decide, fun j => ?_⟩
      show _ ↔ j < 3 ∧ j ≠ 1
      simp only [List.mem_cons, List.not_mem_nil, or_false, exists_eq_or_imp, exists_eq_left]
      omega
    | 2, hnode =>
      cases hnode
      refine ⟨_, rfl, by decide, fun j => ?_⟩
      show _ ↔ j < 3 ∧ j ≠ 2
      simp only [List.mem_cons, List.not_mem_nil, or_false, exists_eq_or_imp, exists_eq_left]
      omega

theorem agrees : Agrees false world := by
  intro k _ n hn x hx
  obtain ⟨role, peers, rfl⟩ := mem_world hn
  obtain ⟨role', peers', rfl⟩ := mem_world hx
  cases k <;> rfl

end Trio

/-- A manager, a wrapper and a service agree after a group, a service of it and the attempt to
delete the group, each from another node. -/
theorem agrees_run_trio :
    let before := Trio.world.runOps
      [(0, .update .group (.new "Lobby" .lobby)), (1, .update .service (.new "Lobby" 1 25565))]
    Agrees false before ∧ Agrees false (before.act 2 (.delete .group (.new "lobby" .lobby))).1 := by
  intro before
  have hroles : false = true → ∀ n ∈ Trio.world, n.config.role ≠ .manager := fun h => nomatch h
  have hops : ∀ op ∈ [(0, LocalOp.update .group (.new "Lobby" .lobby)),
      (1, .update .service (.new "Lobby" 1 25565))], Covers false op.2.kind := by
    intro op hop
    simp only [List.mem_cons, List.not_mem_nil, or_false] at hop
    rcases hop with rfl | rfl
    · exact .inl nofun
    · exact .inl nofun
  obtain ⟨hbefore, hafter, -⟩ := agrees_run Trio.mesh hroles Trio.agrees _ hops 2
    (.delete .group (.new "lobby" .lobby)) (.inl nofun)
  exact ⟨hbefore, hafter⟩

end World

end CloudRoster
