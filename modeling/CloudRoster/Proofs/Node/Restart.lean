import CloudRoster.Node.Start
import CloudRoster.Proofs.Node.Burst
import CloudRoster.Proofs.Storage.Filing

/-!
# Starting on stored values

A manager that starts on a data directory in which both stores are there makes no new directories.
It reads the values that the stores hold, in whatever order the system lists the files, and puts
each of them into its list. The stores are told nothing of it.
-/

namespace CloudRoster

open Cache (Entries OrderedMap.get? OrderedMap.get?_of_mem OrderedMap.get?_eq_none_iff)
open Net (Host Transport)
open Storage (Directory FileTree Store joinPath)

/-! ## Directories that are there -/

namespace Storage.FileTree

/-- Whatever is found without making directories is also found where missing ones are made, and
then none is missing. -/
theorem follow_of_found {t : FileTree} {steps : List Step} {place found : Path}
    (h : (follow false t place steps).2 = some found) :
    follow true t place steps = (t, some found) := by
  induction steps generalizing place with
  | nil =>
    cases h
    rfl
  | cons step steps ih =>
    unfold follow at h ⊢
    cases hat : t.at? place.reverse with
    | none =>
      rw [hat] at h
      cases h
    | some there =>
      rw [hat] at h
      cases there with
      | file bytes => cases h
      | directory cs =>
        cases step with
        | stay | up => exact ih h
        | into name =>
          simp only at h ⊢
          split at h
          · cases h
          · rename_i hshort
            rw [if_neg hshort]
            split at h
            · rename_i hthere
              rw [if_pos hthere]
              exact ih h
            · cases h

/-- Under a path stands a directory with the entries of another one, in whatever order. -/
def Holds (t : FileTree) (path : String) (d : Directory) : Prop :=
  ∃ cs, t.look? path = some (directory cs) ∧ (directory cs).entries.Perm d.entries

/-- A directory that is there is opened as it is. -/
theorem Holds.openDirectory {t : FileTree} {path : String} {d : Directory} (h : t.Holds path d) :
    ∃ listed, t.openDirectory path = (t, some listed) ∧ listed.present = true ∧
      listed.entries.Perm d.entries := by
  obtain ⟨cs, hlook, hperm⟩ := h
  refine ⟨⟨path, true, (directory cs).entries⟩, ?_, rfl, hperm⟩
  unfold look? find? at hlook
  split at hlook
  · rename_i husable
    cases hfollow : (follow false t [] (stepsOf path)).2 with
    | none =>
      rw [hfollow] at hlook
      cases hlook
    | some place =>
      rw [hfollow] at hlook
      have hthere : t.at? place.reverse = some (directory cs) := hlook
      unfold FileTree.openDirectory makeDirectory
      rw [if_pos husable, follow_of_found hfollow]
      simp only [Option.map_some, Option.bind_some, hthere]
  · cases hlook

end Storage.FileTree

/-- However the system lists the files of a directory, reading them gives the values, each once, and
none of the files is skipped. -/
def Storage.Directory.Keeps (d : Directory) (k : Kind) (vs : List k.Val) : Prop :=
  ∀ listed : Directory, listed.present = true → listed.entries.Perm d.entries →
    ∃ loaded, listed.load k = .ok ⟨loaded, []⟩ ∧ loaded.Perm vs

/-- The order of values does not matter to what is found under a key. -/
theorem get?_of_perm {K V : Type} [DecidableEq K] {identify : V → K} {us vs : List V}
    (h : us.Perm vs) (hnodup : (vs.map identify).Nodup) (key : K) :
    OrderedMap.get? identify us key = OrderedMap.get? identify vs key := by
  cases hget : OrderedMap.get? identify vs key with
  | none =>
    rw [OrderedMap.get?_eq_none_iff] at hget ⊢
    exact fun hmem => hget ((h.map identify).mem_iff.1 hmem)
  | some v =>
    obtain rfl : identify v = key := by simpa using List.find?_some hget
    have hmem : v ∈ us := h.mem_iff.2 (List.mem_of_find?_eq_some hget)
    exact OrderedMap.get?_of_mem ((h.map identify).nodup_iff.2 hnodup) hmem

/-! ## Putting stored values into lists -/

namespace Node

theorem foldl_hand (outbox : List CacheUpdate) (n : Node) :
    outbox.foldl (fun n u => n.hand (.cacheUpdate u)) n =
      { n with handed := n.handed ++ outbox.map .cacheUpdate } := by
  induction outbox generalizing n with
  | nil => simp
  | cons u outbox ih =>
    rw [List.foldl_cons, ih, List.map_cons]
    simp [hand]

/-- A stored value is put into the list of its kind. -/
theorem restore_eq (n : Node) (x : Value) : ∃ bus handed, n.restore x = { n with
    lists := n.lists.set x.1 ((n.lists.get x.1).put x.1.key x.2)
    bus := bus, handed := handed } := by
  obtain ⟨k, v⟩ := x
  obtain ⟨bus, hcommit⟩ := commit_of_guard (n.guard_update k v false false)
  unfold restore
  rw [hcommit]
  exact ⟨bus, _, foldl_hand ..⟩

/-- Stored values are put into the lists of their kinds; the stores are left alone. -/
theorem restoreAll_eq (n : Node) (values : List Value) : ∃ lists bus handed,
    (n.restoreAll values).2 = { n with lists := lists, bus := bus, handed := handed } ∧
    ∀ k, lists.get k = (n.lists.get k).absorb k.key (values.filterMap (Value.ofKind? k)) := by
  induction values generalizing n with
  | nil => exact ⟨_, _, _, rfl, fun _ => rfl⟩
  | cons x values ih =>
    obtain ⟨bus, handed, hrestore⟩ := n.restore_eq x
    obtain ⟨lists, bus', handed', hrestored, hlists⟩ := ih (n.restore x)
    rw [hrestore] at hlists
    refine ⟨lists, bus', handed', ?_, fun k => (hlists k).trans (n.lists.absorb_put x values k)⟩
    show ((n.restore x).restoreAll values).2 = _
    rw [hrestored, hrestore]

/-- A node that is put together has the stored values in its lists, and its stores were told
nothing. -/
theorem assemble_eq (c : SyncConfig) (stores : StoreDirectories) (groups : List Group)
    (templates : List Template) : ∃ log n, assemble c (some stores) groups templates = (log, n) ∧
      n.lists.get .group = Entries.absorb Kind.group.key [] groups ∧
      n.lists.get .template = Entries.absorb Kind.template.key [] templates ∧
      n.groupStore = some (.onDirectory stores.groups) ∧
      n.templateStore = some (.onDirectory stores.templates) := by
  let values : List Value := templates.map (⟨.template, ·⟩) ++ groups.map (⟨.group, ·⟩)
  have hgroups : values.filterMap (Value.ofKind? .group) = groups := by
    refine (List.filterMap_append ..).trans ?_
    exact congrArg₂ (· ++ ·)
      (filterMap_ofKind?_of_ne (show Kind.template ≠ Kind.group by decide) templates)
      (filterMap_ofKind? .group groups)
  have htemplates : values.filterMap (Value.ofKind? .template) = templates := by
    refine (List.filterMap_append ..).trans (Eq.trans ?_ (List.append_nil templates))
    exact congrArg₂ (· ++ ·) (filterMap_ofKind? .template templates)
      (filterMap_ofKind?_of_ne (show Kind.group ≠ Kind.template by decide) groups)
  obtain ⟨lists, bus, handed, heq, hlists⟩ := restoreAll_eq
    (Node.new c .none (some (.onDirectory stores.groups)) (some (.onDirectory stores.templates)))
    values
  cases hrestored : restoreAll _ values with
  | mk log n =>
    rw [hrestored] at heq
    obtain rfl : n = _ := heq
    refine ⟨log, _, hrestored, ?_⟩
    exact ⟨(hlists .group).trans (by rw [hgroups]; rfl),
      (hlists .template).trans (by rw [htemplates]; rfl), rfl, rfl⟩

/-! ## The start -/

/-- A node has started on a directory that holds the values of a list of another one: its own list
has these values and no others, each under its key, and its store was told nothing about the
directory. -/
structure Resumes (started n : Node) (k : Kind) (d : Directory) : Prop where
  values : (started.values k).Perm (n.values k)
  list : ∀ key, (started.lists.get k).find? key = (n.lists.get k).find? key
  store : ∃ listed : Directory, started.store? k = some (.onDirectory listed) ∧
    listed.entries.Perm d.entries

variable {k : Kind} {n started : Node} {d listed : Directory}

/-- What is read from a directory that holds the values of a list. -/
theorem Resumes.of_absorb (htidy : n.Tidy) {loaded : List k.Val}
    (hloaded : loaded.Perm (n.values k))
    (hlist : started.lists.get k = Entries.absorb k.key [] loaded)
    (hstore : started.store? k = some (.onDirectory listed))
    (hlisted : listed.entries.Perm d.entries) : started.Resumes n k d := by
  have hnodup : ((n.values k).map k.key).Nodup := (htidy k).nodup_values
  have hnodup' : (loaded.map k.key).Nodup := (hloaded.map k.key).nodup_iff.2 hnodup
  refine ⟨?_, fun key => ?_, listed, hstore, hlisted⟩
  · show (started.lists.get k).values.Perm _
    rw [hlist, Entries.absorb_of_new hnodup' fun v _ => List.not_mem_nil, List.nil_append,
      Entries.values_keyedBy]
    exact hloaded
  · rw [hlist, Entries.find?_absorb hnodup', get?_of_perm hloaded hnodup,
      ← (htidy k).get?_values]
    exact Option.or_none

/-- A listener that is asked for nothing, or for an address that it can have. -/
theorem beginListening_ok (t : Transport) {host : Host} {listen : Option Net.SocketAddr}
    (h : ∀ addr, listen = some addr → (host.bind addr).isSome) :
    ∃ log transport, beginListening t host listen = (log, .ok transport) := by
  cases listen with
  | none => exact ⟨_, _, rfl⟩
  | some addr =>
    obtain ⟨bound, hbind⟩ := Option.isSome_iff_exists.1 (h addr rfl)
    unfold beginListening
    simp only [hbind]
    exact ⟨_, _, rfl⟩

/-- A manager that starts on the directories of both stores, and can listen where it is told to, has
the values of these directories in its lists. No file or directory is touched. -/
theorem start_resumes (htidy : n.Tidy) {groups templates : Directory}
    (hgroups : groups.Keeps .group (n.values .group))
    (htemplates : templates.Keeps .template (n.values .template))
    {c : NodeConfig} {host : Host} {files : FileTree} {root : String}
    (hrole : c.sync.role = .manager) (hroot : c.dataDir = some root)
    (hlisten : ∀ addr, c.listen = some addr → (host.bind addr).isSome)
    (hthere : files.Holds (joinPath root "groups") groups)
    (hthere' : files.Holds (joinPath root "templates") templates) :
    (Node.start c host files).1 = files ∧ ∃ started, (Node.start c host files).2.2 = .ok started ∧
      started.node.Resumes n .group groups ∧ started.node.Resumes n .template templates := by
  obtain ⟨listed, hopened, hpresent, hperm⟩ := hthere.openDirectory
  obtain ⟨listed', hopened', hpresent', hperm'⟩ := hthere'.openDirectory
  obtain ⟨gs, hload, hgs⟩ := hgroups listed hpresent hperm
  obtain ⟨ts, hload', hts⟩ := htemplates listed' hpresent' hperm'
  have hstores : NodeConfig.openStores files root = (files, .ok ⟨listed, listed'⟩) := by
    unfold NodeConfig.openStores
    rw [hopened]
    simp only [hopened']
  have hstart : Node.start c host files = (files, startWith c host (some ⟨listed, listed'⟩)) := by
    have hroot' : c.storeRoot? = some root := by
      unfold NodeConfig.storeRoot?
      rw [hrole]
      exact hroot
    unfold Node.start
    rw [hroot']
    simp only [hstores]
  have hloaded : ∃ log, StoreDirectories.load ⟨listed, listed'⟩ = (log, .ok (gs, ts)) := by
    unfold StoreDirectories.load
    rw [hload]
    simp only
    rw [hload']
    exact ⟨_, rfl⟩
  obtain ⟨log, hloaded⟩ := hloaded
  obtain ⟨log', node, hassembled, hlist, hlist', hstore, hstore'⟩ :=
    assemble_eq c.sync ⟨listed, listed'⟩ gs ts
  obtain ⟨log'', transport, hlistening⟩ := beginListening_ok ⟨c.sync.nodeName, true, none⟩ hlisten
  rw [hstart]
  refine ⟨rfl, ⟨node, transport⟩, ?_, .of_absorb htidy hgs hlist hstore hperm,
    .of_absorb htidy hts hlist' hstore' hperm'⟩
  unfold startWith StoreDirectories.loadAny
  simp only [hloaded, hassembled, hlistening]

end Node

end CloudRoster
