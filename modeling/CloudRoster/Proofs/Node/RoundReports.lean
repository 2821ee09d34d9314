import CloudRoster.Proofs.Node.AtHome
import CloudRoster.Proofs.Node.Mesh

/-!
# The reports of rounds

The report of a round is a function of the replies by the names of the peers (`Report.ofReplies`):
the number of peers, the number of replies that are no error, and in order the names and reasons of
the others. Two peers of one name are two peers. A round over the loopback visits its peers one
after another and stops for no reply, so its report is that of an exchange with all of them.
-/

namespace CloudRoster

/-! ## Reports and replies -/

/-- The reason that a reply gives for not having taken the message. -/
def Message.reason? : Message → Option String
  | .error e => some e.message
  | _ => none

namespace Report

/-- The report of replies, by the names of the peers, in a round with a number of peers. -/
def among (total : Nat) (answers : List (String × Message)) : Report where
  total := total
  delivered := answers.countP (·.2.isSuccess)
  failures := answers.filterMap fun a => a.2.reason?.map (a.1, ·)

/-- The report of a round in which every peer has replied. -/
def ofReplies (answers : List (String × Message)) : Report := among answers.length answers

variable {total : Nat} {answers : List (String × Message)}

/-- One more reply is counted. -/
theorem count_among (total : Nat) (answers : List (String × Message)) (name : String)
    (reply : Message) :
    (among total answers).count name reply = among total (answers ++ [(name, reply)]) := by
  unfold among
  rw [List.countP_append, List.filterMap_append]
  cases reply <;> simp [count, fail, deliver, Message.isSuccess, Message.reason?]

/-- Every peer is accounted for once, as a delivery or as a failure. -/
theorem delivered_add_failures (answers : List (String × Message)) :
    (ofReplies answers).delivered + (ofReplies answers).failures.length =
      (ofReplies answers).total := by
  have hfailures : (ofReplies answers).failures.length =
      answers.countP fun a => decide ¬a.2.isSuccess = true := by
    refine List.length_filterMap_eq_countP.trans (List.countP_congr fun a _ => ?_)
    cases a.2 <;> simp [Message.isSuccess, Message.reason?]
  rw [hfailures]
  exact (List.length_eq_countP_add_countP _).symm

theorem failures_eq_nil_iff :
    (ofReplies answers).failures = [] ↔ ∀ a ∈ answers, a.2.isSuccess = true := by
  show answers.filterMap _ = [] ↔ _
  rw [List.filterMap_eq_nil_iff]
  refine forall₂_congr fun a _ => ?_
  cases a.2 <;> simp [Message.isSuccess, Message.reason?]

/-- A report is complete exactly if no reply is an error. -/
theorem isComplete_ofReplies :
    (ofReplies answers).isComplete = true ↔ ∀ a ∈ answers, a.2.isSuccess = true := by
  have hall := delivered_add_failures answers
  rw [isComplete, Bool.and_eq_true, List.isEmpty_iff, beq_iff_eq, ← failures_eq_nil_iff]
  constructor
  · exact And.left
  · intro hnone
    rw [hnone] at hall
    exact ⟨hnone, hall⟩

end Report

namespace World

/-! ## Rounds that run to their end -/

/-- The replies by the names under which the peers are connected. -/
def answers (peers : List (String × Nat)) (replies : List Message) : List (String × Message) :=
  (peers.map (·.1)).zip replies

theorem answers_append {peers later : List (String × Nat)} {replies more : List Message}
    (h : replies.length = peers.length) :
    answers (peers ++ later) (replies ++ more) = answers peers replies ++ answers later more := by
  unfold answers
  rw [List.map_append, List.zip_append]
  rw [List.length_map, h]

theorem length_answers {peers : List (String × Nat)} {replies : List Message}
    (h : replies.length = peers.length) : (answers peers replies).length = peers.length := by
  rw [answers, List.length_zip, List.length_map, h, Nat.min_self]

end World

/-- A report accounts for what the peers replied. -/
structure Report.Accounts (r : Report) (peers : List (String × Nat)) (replies : List Message) :
    Prop where
  /-- Every peer has replied once. -/
  each : replies.length = peers.length
  total : r.total = peers.length
  sum : r.delivered + r.failures.length = r.total
  /-- The peers that replied with an error are named with the reason, in order. -/
  failures : r.failures = (World.answers peers replies).filterMap fun a =>
    a.2.reason?.map (a.1, ·)
  /-- The round is a success exactly if no reply is an error. -/
  result : r.result = if ∀ reply ∈ replies, reply.isSuccess = true then .ok ()
    else .error (.broadcast r.delivered r.total r.reasons)

theorem Report.accounts_ofReplies {peers : List (String × Nat)} {replies : List Message}
    (h : replies.length = peers.length) :
    (ofReplies (World.answers peers replies)).Accounts peers replies := by
  have hall : (∀ a ∈ World.answers peers replies, a.2.isSuccess = true) ↔
      ∀ reply ∈ replies, reply.isSuccess = true := by
    have hsecond : (World.answers peers replies).map (·.2) = replies :=
      List.map_snd_zip (Nat.le_of_eq (by rw [List.length_map, h]))
    refine ⟨fun hgood reply hlisted => ?_,
      fun hgood a hlisted => hgood a.2 (List.of_mem_zip hlisted).2⟩
    rw [← hsecond] at hlisted
    obtain ⟨a, hanswered, rfl⟩ := List.mem_map.1 hlisted
    exact hgood a hanswered
  refine ⟨h, World.length_answers h, delivered_add_failures _, rfl, ?_⟩
  rw [result]
  simp only [isComplete_ofReplies, hall]

namespace World

/-- The replies of an exchange. -/
def replies (m : Message) (w : World) (peers : List (String × Nat)) : List Message :=
  (w.exchange m peers).2.map (·.2)

theorem replies_cons (m : Message) (w : World) (name : String) (i : Nat)
    (peers : List (String × Nat)) :
    replies m w ((name, i) :: peers) = (w.receive i m).2 :: replies m (w.receive i m).1 peers :=
  rfl

/-- An exchange visits every peer once, in order. -/
theorem exchange_visits (m : Message) (w : World) (peers : List (String × Nat)) :
    (w.exchange m peers).2.map (·.1) = peers.map (·.2) := by
  induction peers generalizing w with
  | nil => rfl
  | cons peer peers ih => exact congrArg (peer.2 :: ·) (ih _)

theorem length_replies (m : Message) (w : World) (peers : List (String × Nat)) :
    (replies m w peers).length = peers.length := by
  rw [replies, List.length_map, ← List.length_map (f := (·.1)), exchange_visits, List.length_map]

/-- A visit that comes back is the receipt of the message. -/
theorem receive_of_visit {w w' : World} {busy : Option (Nat × ((k : Kind) × k.Key))} {m : Message}
    {name : String} {i : Nat} {r r' : Report} (h : w.visit busy m name i r = some (w', r')) :
    w' = (w.receive i m).1 ∧ r' = r.count name (w.receive i m).2 := by
  unfold visit at h
  cases hi : w[i]? with
  | none =>
    rw [hi] at h
    cases h
    rw [receive_of_none hi]
    exact ⟨rfl, rfl⟩
  | some n =>
    simp only [hi] at h
    obtain ⟨-, heq⟩ := Option.ite_none_left_eq_some.1 h
    cases heq
    rw [receive_of_some hi]
    exact ⟨rfl, rfl⟩

/-- A row of visits that comes to its end is an exchange, whatever the replies are, and every reply
is counted. -/
theorem exchange_of_visitAll {busy : Option (Nat × ((k : Kind) × k.Key))} {m : Message}
    {total : Nat} (peers : List (String × Nat)) {w w' : World} (before : List (String × Message))
    {r : Report} (h : visitAll busy m w peers (.among total before) = (w', some r)) :
    w' = (w.exchange m peers).1 ∧
      r = .among total (before ++ answers peers (replies m w peers)) := by
  induction peers generalizing w before with
  | nil =>
    cases h
    exact ⟨rfl, by simp [answers]⟩
  | cons peer peers ih =>
    obtain ⟨name, i⟩ := peer
    rw [visitAll] at h
    cases hvisited : w.visit busy m name i (.among total before) with
    | none =>
      rw [hvisited] at h
      cases h
    | some back =>
      obtain ⟨w₁, r₁⟩ := back
      obtain ⟨rfl, rfl⟩ := receive_of_visit hvisited
      rw [hvisited, Report.count_among] at h
      obtain ⟨rfl, rfl⟩ := ih _ h
      refine ⟨rfl, ?_⟩
      rw [replies_cons, List.append_assoc]
      rfl

/-- A row of visits that came to its end reports all replies. -/
theorem report_of_visitAll {busy : Option (Nat × ((k : Kind) × k.Key))} {m : Message}
    {peers : List (String × Nat)} {w w' : World} {r : Report}
    (h : visitAll busy m w peers ⟨peers.length, 0, []⟩ = (w', some r)) :
    w' = (w.exchange m peers).1 ∧ r = .ofReplies (answers peers (replies m w peers)) := by
  obtain ⟨hexchanged, hcounted⟩ := exchange_of_visitAll peers [] h
  rw [List.nil_append] at hcounted
  refine ⟨hexchanged, hcounted.trans ?_⟩
  rw [Report.ofReplies, length_answers (length_replies m w peers)]

section

variable {w : World} {i : Nat} {n : Node} {peers : List (String × Nat)}

/-- A message that is handed to the loopback directly reaches every peer. -/
theorem broadcast_reports (hnode : w[i]? = some n) (hpeers : n.broadcaster = .loopback peers)
    (m : Message) (timeout : Option Nat) :
    w.broadcast i none timeout m = (((w.update i (n.hand m)).exchange m peers).1,
      .ok (.ofReplies (answers peers (replies m (w.update i (n.hand m)) peers)))) := by
  have hfree : ∀ b : Nat × ((k : Kind) × k.Key), none = some b → ∀ p ∈ peers, p.2 ≠ b.1 := nofun
  obtain ⟨r, hvisits, -⟩ := visitAll_eq hfree m (w.update i (n.hand m)) ⟨peers.length, 0, []⟩
  obtain ⟨-, rfl⟩ := report_of_visitAll hvisits
  unfold broadcast
  simp only [hnode, hpeers, Option.map_none, hvisits]

end

end World

/-! ## Local updates -/

/-- The update of a list by its own node. -/
abbrev Change.own (k : Kind) (v : k.Val) : Change := ⟨k, v, .update, false, false⟩

namespace Node

variable {n : Node} {k : Kind} {v : k.Val}

/-- What is under the key of an update after it. -/
theorem find?_place (es : Cache.Entries k.Key k.Val) (v : k.Val) (fromPacket managed : Bool) :
    ((⟨k, v, .update, fromPacket, managed⟩ : Change).applyTo es).find? (k.key v) = some v := by
  show Cache.Entries.find? (if (es.find? (k.key v)).isSome then es.replace (k.key v) v
    else es.push (k.key v) v) (k.key v) = some v
  split
  · next hcached => exact Cache.Entries.find?_replace_self hcached v
  · next habsent =>
    rw [Cache.Entries.find?_push, if_pos rfl, Option.not_isSome_iff_eq_none.1 habsent]
    rfl

/-- The commit of a local update on a node that tells its peers: the value is cached, and there is
one message for the peers. -/
theorem commit_own (hspreads : n.spreads k = true) (v : k.Val) :
    ∃ n', n.commit (.own k v) = .ok (n', [.about k v .update]) ∧ n'.cached k v = some v ∧
      n'.config = n.config ∧ n'.registry = n.registry ∧ n'.broadcaster = n.broadcaster := by
  have htold : n.outbox (.own k v) = [.about k v .update] := by simp [outbox, hspreads]
  obtain ⟨bus, hcommitted⟩ := commit_of_guard (n.guard_update k v false false)
  rw [htold] at hcommitted
  refine ⟨_, hcommitted, ?_, rfl, rfl, rfl⟩
  show ((n.lists.set k _).get k).find? (k.key v) = some v
  rw [Lists.get_set_self]
  exact find?_place ..

/-- The list's own update tells no store. -/
theorem persist_own (n : Node) (k : Kind) (v : k.Val) (result : Except SyncError Unit) :
    n.persist (.own k v) result = (n, result) := rfl

end Node

namespace World

variable {w : World} {i : Nat} {n : Node} {peers : List (String × Nat)} {k : Kind}

/-- The one round of an update: it waits for the node itself, or is an exchange and ends with the
report of all replies. -/
theorem spread_reports (hnode : w[i]? = some n) (hpeers : n.broadcaster = .loopback peers)
    (c : Change) (u : CacheUpdate) :
    let sent := w.update i (n.hand (.cacheUpdate u))
    (spread i c w [u]).2 = .error .timeout ∧ (∃ p ∈ peers, p.2 = i) ∨
      spread i c w [u] = ((sent.exchange (.cacheUpdate u) peers).1,
        (Report.ofReplies (answers peers (replies (.cacheUpdate u) sent peers))).result) := by
  intro sent
  have hround : spread i c w [u] = Prod.map id (·.bind Report.result)
      (w.broadcast i (some c.subject) ((w[i]?).map (·.config.broadcastTimeoutMs.toNat))
        (.cacheUpdate u)) := by
    unfold spread
    simp only
    split
    · next hok =>
      rw [Prod.map, hok]
      rfl
    · next hfailed => rw [Prod.map, hfailed, id]
  rw [hround]
  unfold broadcast
  simp only [hnode, hpeers]
  cases hvisits : visitAll ((some c.subject).map fun s => (i, s)) (.cacheUpdate u)
      (w.update i (n.hand (.cacheUpdate u))) peers ⟨peers.length, 0, []⟩ with
  | mk w' report =>
    cases report with
    | none =>
      by_cases hitself : ∃ p ∈ peers, p.2 = i
      · exact .inl ⟨rfl, hitself⟩
      -- no other node is busy
      have hothers : ∀ b, (some c.subject).map (fun s => (i, s)) = some b →
          ∀ p ∈ peers, p.2 ≠ b.1 := by
        rintro b ⟨⟩ p hlisted hsame
        exact hitself ⟨p, hlisted, hsame⟩
      obtain ⟨r, hcomplete, -⟩ := visitAll_eq hothers (.cacheUpdate u)
        (w.update i (n.hand (.cacheUpdate u))) ⟨peers.length, 0, []⟩
      cases hvisits.symm.trans hcomplete
    | some r =>
      obtain ⟨rfl, rfl⟩ := report_of_visitAll hvisits
      exact .inr rfl

/-- The update of a list that tells its peers: the value is cached whatever they reply, and the
result is that of the report, unless the round waited for the node itself as a peer. -/
theorem perform_own_reports (hnode : w[i]? = some n) (hpeers : n.broadcaster = .loopback peers)
    (hspreads : n.spreads k = true) (v : k.Val) :
    let m := Message.cacheUpdate (.about k v .update)
    ∃ n' x, n.commit (.own k v) = .ok (n', [.about k v .update]) ∧
      (w.perform i (.own k v)).1[i]? = some x ∧ x.cached k v = some v ∧
      let sent := w.update i (n'.hand m)
      ((w.perform i (.own k v)).2 = .error .timeout ∧ (∃ p ∈ peers, p.2 = i) ∨
        w.perform i (.own k v) = ((sent.exchange m peers).1,
          (Report.ofReplies (answers peers (replies m sent peers))).result)) := by
  intro m
  obtain ⟨n', hcommitted, hcached, -, -, hbroadcaster⟩ := Node.commit_own hspreads v
  have hnode' := getElem?_update_self hnode n'
  obtain ⟨told, -, -, hhome⟩ := spread_at_home (.own k v) hnode' [.update]
  -- the update tells no store, so it is over with its round
  have hperformed : w.perform i (.own k v) =
      spread i (.own k v) (w.update i n') [.about k v .update] := by
    rw [perform_of_commit hnode hcommitted hhome, Node.persist_own]
    refine Prod.ext (List.ext_getElem? fun j => ?_) rfl
    by_cases hj : j = i
    · subst hj
      exact (getElem?_update_self hhome _).trans hhome.symm
    · exact getElem?_update_of_ne _ hj _
  rw [hperformed]
  refine ⟨n', _, hcommitted, hhome, hcached, ?_⟩
  have hreports := spread_reports hnode' (hbroadcaster.trans hpeers) (.own k v) (.about k v .update)
  rw [update_update] at hreports
  exact hreports

end World

end CloudRoster
