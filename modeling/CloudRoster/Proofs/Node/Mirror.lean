import CloudRoster.Proofs.Node.Restart
import CloudRoster.Proofs.Node.Upkeep

/-!
# What a store mirrors

A node began without values and with stores on empty directories. Operations have run on it and on
other nodes at the same time, and all of them are over. If no order to a store has failed, its
directory holds the values of the list and no others, and a manager that starts on the directories
has the lists again.

No order may have been left out. Every managed change of a group or a template that is committed
gives one; a change that is not managed, that a round takes for one of a value that cannot be
written, or that is abandoned between its commit and its order is in the list only.
-/

namespace CloudRoster

open Cache (OrderedMap.get?)
open Net (Host)
open Storage (Directory FileTree Order Store lastAbout joinPath)

/-- The store of a list is on a directory that holds the values of the list. -/
structure Node.Mirrored (n : Node) (k : Kind) (d : Directory) : Prop where
  store : ∃ s, n.store? k = some s ∧ s.directory = some d
  keeps : d.Keeps k (n.values k)

section

variable {w : World} {i : Nat} {k : Kind} {steps : List Step} {t : Traffic}

/-- Once nothing is owed, the last orders are those of the last changes, which made the list what it
is. -/
theorem Booked.mirrors (h : Booked i k t) (hquiet : t.isQuiet = true) {n : Node}
    (hlisted : n.ListedBy i t.journal) :
    Directory.Mirrors k (t.told i k) (n.values k) := by
  intro key
  have hfind : OrderedMap.get? k.key (n.values k) key = (n.lists.get k).find? key :=
    (hlisted.tidy k).get?_values key
  rw [(h.told key).resolve_left (Traffic.not_isOwed_of_isQuiet hquiet i _), hfind]
  cases hlatest : Journal.latest i ⟨k, key⟩ t.journal with
  | none =>
    rw [hlisted.unchanged k key hlatest]
    rfl
  | some c =>
    have hsubject := Journal.subject_of_latest hlatest
    have hleaves := c.leaves_order
    have hcached := hlisted.changed c (hsubject ▸ hlatest)
    obtain ⟨j, v, action, fromPacket, managed⟩ := c
    cases hsubject
    show Order.leaves _ _ = _
    rw [hleaves, ← hcached]
    rfl

/-- A node without values, with a store on an empty directory. -/
structure Node.Fresh (n : Node) (k : Kind) (path : String) : Prop where
  tidy : n.Tidy
  empty : n.lists = .empty
  store : n.store? k = some (.onDirectory (.new path))

namespace Node.Fresh

variable {n : Node} {path : String}

theorem listedBy (h : n.Fresh k path) : n.ListedBy i [] := by
  refine ⟨h.tidy, fun c hc => (nomatch hc), fun k key _ => ?_⟩
  rw [h.empty]
  cases k <;> rfl

theorem storesIn (h : n.Fresh k path) : n.StoresIn k path := by
  refine ⟨_, h.store, fun x hx => absurd hx List.not_mem_nil, fun d hd => ?_⟩
  cases hd
  rfl

theorem booked (h : n.Fresh k path) (hnode : w[i]? = some n) : Booked i k (.new w) := by
  have hstore : (Traffic.new w).storeAt i k = some (.onDirectory (.new path)) :=
    (storeAt_of_node hnode).trans h.store
  refine ⟨by rw [hstore]; rfl, fun id o hop => (nomatch hop), fun key => .inr ?_⟩
  unfold Traffic.told
  rw [hstore]
  rfl

/-- The store of a list, after a run that is not disturbed and in which no order failed. -/
theorem mirrored (h : n.Fresh k path) (hk : k = .group ∨ k = .template) (hnode : w[i]? = some n)
    (hrun : Undisturbed (.new w) i steps) (hquiet : ((Traffic.new w).run steps).isQuiet = true)
    {d : Directory}
    (hobeyed : (Directory.new path).obeyAll (((Traffic.new w).run steps).told i k) = .ok d) :
    ∃ n', ((Traffic.new w).run steps).world[i]? = some n' ∧ n'.Tidy ∧ n'.Mirrored k d := by
  have hnew : ∀ m, w[i]? = some m → m = n := fun m hm => Option.some.inj (hm.symm.trans hnode)
  have hlisted : ∀ m, w[i]? = some m → m.ListedBy i [] := fun m hm => hnew m hm ▸ h.listedBy
  have hbooked := booked_run hk hlisted (h.booked hnode) hrun
  obtain ⟨z, -, hcurrent, htraffic⟩ := exists_current hlisted steps
  obtain ⟨z', -, ⟨n', hn', s, hs, hkinds, hdirectory⟩, htraffic'⟩ :=
    (sound_new w).run ((Node.kept_storesIn k path).kept_exists i) ⟨n, hnode, h.storesIn⟩ steps
  rw [htraffic'] at hn'
  have hlisted' : n'.ListedBy i ((Traffic.new w).run steps).journal :=
    htraffic ▸ hcurrent.listed n' (htraffic ▸ hn')
  have htold : ((Traffic.new w).run steps).told i k = s.journal := by
    unfold Traffic.told
    rw [storeAt_of_node hn', hs]
    rfl
  have hmirrors := hbooked.mirrors hquiet hlisted'
  rw [htold] at hobeyed hmirrors
  exact ⟨n', hn', hlisted'.tidy, ⟨s, hs, hdirectory d hobeyed⟩, fun _ =>
    (Directory.reflects_obeyAll hkinds hobeyed).load hmirrors (hlisted'.tidy k).nodup_values⟩

end Node.Fresh

end

/-- Take a node that is new, with stores of groups and templates on empty directories, and any run
of operations on it and on other nodes at the same time that is not disturbed. Once all operations
are over, and if no order to the stores has failed, their directories hold the values of the two
lists: however the system lists the files, reading them gives these values, each once. A manager
that starts on files in which these directories stand leaves them as they are, and has a group and a
template under each key just as the node has. -/
theorem disk_mirrors_lists {w : World} {i : Nat} {config : SyncConfig} {b : Broadcaster}
    {groupPath templatePath : String} {steps : List Step}
    (hnode : w[i]? = some (.new config b (some (.onDirectory (.new groupPath)))
      (some (.onDirectory (.new templatePath)))))
    (hrun : Undisturbed (.new w) i steps) (hquiet : ((Traffic.new w).run steps).isQuiet = true)
    {groups templates : Directory}
    (hgroups : (Directory.new groupPath).obeyAll
      (((Traffic.new w).run steps).told i .group) = .ok groups)
    (htemplates : (Directory.new templatePath).obeyAll
      (((Traffic.new w).run steps).told i .template) = .ok templates) :
    ∃ n, ((Traffic.new w).run steps).world[i]? = some n ∧
      n.Mirrored .group groups ∧ n.Mirrored .template templates ∧
      ∀ (c : NodeConfig) (host : Host) (files : FileTree) (root : String),
        c.sync.role = .manager → c.dataDir = some root →
        (∀ addr, c.listen = some addr → (host.bind addr).isSome) →
        files.Holds (joinPath root "groups") groups →
        files.Holds (joinPath root "templates") templates →
        (Node.start c host files).1 = files ∧
        ∃ started, (Node.start c host files).2.2 = .ok started ∧
          started.node.Resumes n .group groups ∧ started.node.Resumes n .template templates := by
  have htidy := Node.tidy_new config b (some (.onDirectory (.new groupPath)))
    (some (.onDirectory (.new templatePath)))
  have hfresh : Node.Fresh _ .group groupPath := ⟨htidy, rfl, rfl⟩
  have hfresh' : Node.Fresh _ .template templatePath := ⟨htidy, rfl, rfl⟩
  obtain ⟨n, hn, htidy', hmirrored⟩ := hfresh.mirrored (.inl rfl) hnode hrun hquiet hgroups
  obtain ⟨n', hn', -, hmirrored'⟩ := hfresh'.mirrored (.inr rfl) hnode hrun hquiet htemplates
  cases hn.symm.trans hn'
  exact ⟨n, hn, hmirrored, hmirrored', fun c host files root hrole hroot hlisten =>
    Node.start_resumes htidy' hmirrored.keeps hmirrored'.keeps hrole hroot hlisten⟩

theorem Traffic.run_cons (t : Traffic) (step : Step) (steps : List Step) :
    t.run (step :: steps) = (t.step step).run steps := rfl

/-- An operation that takes up a message asks for the change that the message brings. -/
theorem Traffic.poll_message {t : Traffic} {id node : Nat} {m : Message} {n : Node} {c : Change}
    (hop : t.operations[id]? = some ⟨node, .message m, .fresh⟩) (hn : t.world[node]? = some n)
    (harrival : n.arrival m = .change c) :
    t.step (.poll id) = t.request id ⟨node, .message m, .fresh⟩ c := by
  show (t.operations[id]?).elim t (t.poll id) = _
  rw [hop]
  unfold Option.elim poll begin
  simp only [hn, harrival]

/-! ### A group that is respelled, and a template that is removed -/

namespace Archive

def lobby : Group := .new "Lobby" .lobby

def shouted : Group := .new "LOBBY" .lobby

def base : Template := .new "Base"

/-- A node with a peer that answers when the run says so. -/
def node : Node := .new .standard (.external 1 fun _ => ⟨0, .ok ⟨1, 1, []⟩⟩)
  (some (.onDirectory (.new "data/groups"))) (some (.onDirectory (.new "data/templates")))

/-- A peer sends the group in other letters. -/
def message : Message := .cacheUpdate (.about .group shouted .update)

/-- A group is on its way to the peer when the message comes. -/
def before : List Step :=
  [.start 0 (.change ⟨.group, lobby, .update, false, true⟩), .poll 0, .start 0 (.message message)]

/-- The peer does not answer, and the message is taken up. Meanwhile a template has come, and then
it goes again. -/
def after : List Step :=
  [.start 0 (.change ⟨.template, base, .update, false, true⟩), .poll 2, .answer 0 (.error .timeout),
    .persist 0, .poll 1, .answer 2 (.ok ⟨1, 1, []⟩), .persist 1, .persist 2,
    .start 0 (.deleteTemplate "BASE"), .poll 3, .answer 3 (.ok ⟨1, 1, []⟩),
    .answer 3 (.ok ⟨1, 1, []⟩), .persist 3]

def steps : List Step := before ++ .poll 1 :: after

/-- The operation of the message has asked for the group, which another one has. -/
def between : Traffic :=
  ((Traffic.new [node]).run before).request 1 ⟨0, .message message, .fresh⟩
    (.asked .group shouted .update)

theorem run_steps : (Traffic.new [node]).run steps = between.run after := by
  obtain ⟨n, hn, hlist⟩ : ∃ n, ((Traffic.new [node]).run before).world[0]? = some n ∧
      n.registry.find? Kind.group.listName = some .group := ⟨_, rfl, rfl⟩
  have hpoll : ((Traffic.new [node]).run before).step (.poll 1) = between :=
    Traffic.poll_message rfl hn (Node.arrival_about hlist shouted .update)
  unfold steps
  rw [Traffic.run_append, Traffic.run_cons, hpoll]

/-- In the end all is done, the stores were told of each change in turn, and the group is all that
is left. -/
theorem run_ends : ((Traffic.new [node]).run steps).isQuiet = true ∧
    ((Traffic.new [node]).run steps).told 0 .group =
      [(.save, ⟨.group, lobby⟩), (.save, ⟨.group, shouted⟩)] ∧
    ((Traffic.new [node]).run steps).told 0 .template =
      [(.save, ⟨.template, base⟩), (.remove, ⟨.template, base⟩)] ∧
    (((Traffic.new [node]).run steps).world[0]?).map
      (fun n => (n.values .group, n.values .template)) = some ([shouted], []) := by
  rw [run_steps]
  decide +kernel

theorem undisturbed : Undisturbed (.new [node]) 0 steps where
  managed c hc _ := by
    simp only [steps, before, after, List.cons_append, List.nil_append, List.mem_cons,
      Step.start.injEq, Task.change.injEq, true_and, reduceCtorEq, and_false, false_or, or_false,
      List.not_mem_nil] at hc
    rcases hc with rfl | rfl <;> rfl
  outcomes id reason h := by
    simp [steps, before, after] at h
  finished earlier id later h := by
    have hmem : Step.abandon id ∈ steps := h ▸ List.mem_append_right _ List.mem_cons_self
    simp [steps, before, after] at hmem
  inTime earlier id later h := by
    have hmem : Step.expire id ∈ steps := h ▸ List.mem_append_right _ List.mem_cons_self
    simp [steps, before, after] at hmem

/-- What the directory of groups holds in the end. -/
def groups : Directory := ⟨"data/groups", true, [("lobby.json", Storage.stored .group shouted)]⟩

/-- The files of the node in the end. -/
def files : FileTree := .directory [("data", .directory [("templates", .directory []),
  ("groups", .directory [("lobby.json", .file (Group.codec.write shouted).indented.toUTF8)])])]

def config : NodeConfig :=
  { NodeConfig.standard with
    sync := { SyncConfig.standard with role := .manager }
    dataDir := some "data" }

theorem holds_groups : files.Holds (joinPath "data" "groups") groups := by
  have hsteps : FileTree.stepsOf "data/groups" = [.into "data", .into "groups"] := by
    decide +kernel
  have hlook : files.look? "data/groups" =
      some (.directory [("lobby.json", .file (Group.codec.write shouted).indented.toUTF8)]) := by
    unfold FileTree.look? FileTree.find?
    rw [hsteps]
    rfl
  have hpath : joinPath "data" "groups" = "data/groups" := by decide +kernel
  exact ⟨_, hpath ▸ hlook, .refl _⟩

theorem holds_templates :
    files.Holds (joinPath "data" "templates") (.new "data/templates") := by
  have hsteps : FileTree.stepsOf "data/templates" = [.into "data", .into "templates"] := by
    decide +kernel
  have hlook : files.look? "data/templates" = some (.directory []) := by
    unfold FileTree.look? FileTree.find?
    rw [hsteps]
    rfl
  have hpath : joinPath "data" "templates" = "data/templates" := by decide +kernel
  exact ⟨_, hpath ▸ hlook, .refl _⟩

/-- The group is in one file, as it was spelled last, and comes back like that; nothing is left of
the template. -/
theorem disk_mirrors_respelled : Undisturbed (.new [node]) 0 steps ∧
    ((Traffic.new [node]).run steps).isQuiet = true ∧
    ∃ n, ((Traffic.new [node]).run steps).world[0]? = some n ∧
      n.values .group = [shouted] ∧ n.values .template = [] ∧
      n.Mirrored .group groups ∧ n.Mirrored .template (.new "data/templates") ∧
      (Node.start config .alone files).1 = files ∧
      ∃ started, (Node.start config .alone files).2.2 = .ok started ∧
        started.node.values .group = [shouted] ∧ started.node.values .template = [] := by
  obtain ⟨hquiet, hgroups, htemplates, hlists⟩ := run_ends
  have hobeyed : (Directory.new "data/groups").obeyAll
      [(.save, ⟨.group, lobby⟩), (.save, ⟨.group, shouted⟩)] = .ok groups := rfl
  have hobeyed' : (Directory.new "data/templates").obeyAll
      [(.save, ⟨.template, base⟩), (.remove, ⟨.template, base⟩)] = .ok (.new "data/templates") :=
    rfl
  obtain ⟨n, hn, hmirrored, hmirrored', hrestart⟩ :=
    disk_mirrors_lists rfl undisturbed hquiet (hgroups ▸ hobeyed) (htemplates ▸ hobeyed')
  rw [hn] at hlists
  obtain ⟨hgroup, htemplate⟩ := Prod.mk.inj (Option.some.inj hlists)
  obtain ⟨hfiles, started, hstarted, hresumes, hresumes'⟩ :=
    hrestart config .alone files "data" rfl rfl (fun _ h => nomatch h) holds_groups holds_templates
  exact ⟨undisturbed, hquiet, n, hn, hgroup, htemplate, hmirrored, hmirrored', hfiles, started,
    hstarted, List.perm_singleton.1 (hgroup ▸ hresumes.values),
    List.perm_nil.1 (htemplate ▸ hresumes'.values)⟩

end Archive

end CloudRoster
