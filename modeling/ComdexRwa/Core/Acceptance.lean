import ComdexRwa.Core.ContactBook
import ComdexRwa.Foundation.Outcome

/-! Accepting a request. The handler's second search keeps no flag, so that it goes through
rests on what both parties of every request have written down. -/
namespace ComdexRwa.Core
open Foundation Txn

section Handler
variable {env : Env} {h : History} {s s' : Storage} {info : MessageInfo} {address : Addr} {c d : ContactInfo}

/-- In a state reached, a request that was received is one that its sender has kept. -/
theorem acceptReady_of_received (hn : s.notebooks.Reciprocal) (hf : info.funds = [])
    (hc : s.contactInfo.lookup info.sender = some c) (hm : address ∈ c.receivedRequests) :
    ∃ d, AcceptReady s info address c d := by
  have hrec : address ∈ s.notebooks.received info.sender := by
    change address ∈ listed _ _ _
    rwa [listed_of_lookup _ hc]
  have hsent := hn.sent_iff.mpr hrec
  obtain ⟨d, hd⟩ := lookup_of_mem_listed hsent
  refine ⟨d, hf, hc, hm, ?_, ?_⟩
  · rw [Finmap.lookup_insert_of_ne _ (hn.ne_of_received hrec)]
    exact hd
  · change info.sender ∈ listed _ _ _ at hsent
    rwa [listed_of_lookup _ hd] at hsent

theorem acceptRequest_returns_of_received (hn : s.notebooks.Reciprocal) (hf : info.funds = [])
    (hc : s.contactInfo.lookup info.sender = some c) (hm : address ∈ c.receivedRequests) :
    ∃ r s', (acceptRequest info address).Returns s r s' := by
  obtain ⟨d, hready⟩ := acceptReady_of_received hn hf hc hm
  exact ⟨_, _, (acceptRequest_returns info address s _ _).mpr ⟨rfl, c, d, hready, rfl⟩⟩

/-- The handler is cut off by one of its first three guards only, before it has written anything. -/
theorem acceptRequest_aborts {e : Abort ContractError} (hn : s.notebooks.Reciprocal)
    (h : (acceptRequest info address).Aborts s e s') :
    (e = .error (.generic "Funds not accepted") ∨ e = .error (.generic "Profile does not exist") ∨
      e = .error (.generic "No request found")) ∧ s' = s := by
  have hcut := h
  simp only [acceptRequest, search_eq, Nat.zero_add, aborts_ensure_bind, Table.aborts_mayLoad_bind,
    aborts_okOr_bind, contactInfoMap_read, decide_eq_true_eq] at hcut
  rcases hcut with ⟨_, rfl, rfl⟩ | ⟨hf, ⟨_, rfl, rfl⟩ | ⟨c, hc, ⟨_, rfl, rfl⟩ | ⟨hm, _⟩⟩⟩
  · exact ⟨.inl rfl, rfl⟩
  · exact ⟨.inr (.inl rfl), rfl⟩
  · exact ⟨.inr (.inr rfl), rfl⟩
  · obtain ⟨r, t, hx⟩ := acceptRequest_returns_of_received hn hf hc hm
    exact (hx.not_aborts h).elim

/-- What one acceptance leaves, and what it leaves alone. -/
structure Completed (s s' : Storage) (sender address : Addr) (c d : ContactInfo) : Prop where
  distinct : address ≠ sender
  senderBefore : s.contactInfo.lookup sender = some c
  requesterBefore : s.contactInfo.lookup address = some d
  receivedOnce : c.receivedRequests.count address = 1
  sentOnce : d.sentRequests.count sender = 1
  senderAfter : s'.contactInfo.lookup sender = some
    { c with
      receivedRequests := c.receivedRequests.erase address
      contacts := c.contacts ++ [address] }
  requesterAfter : s'.contactInfo.lookup address = some
    { d with
      sentRequests := d.sentRequests.erase sender
      contacts := d.contacts ++ [sender] }
  others : ∀ a, a ≠ sender → a ≠ address → s'.contactInfo.lookup a = s.contactInfo.lookup a
  elsewhere : s' = { s with contactInfo := s'.contactInfo }

private theorem AcceptReady.completed (hn : s.notebooks.Reciprocal) (hready : AcceptReady s info address c d) :
    Completed s (s.befriended info.sender address c d) info.sender address c d := by
  have hne := hready.ne hn
  have hd := hready.requester_of_ne hne
  have hsent : (s.notebooks.sent address).count info.sender = 1 := by
    have hpos := List.count_pos_iff.mpr (hready.pending hne)
    have hone := hn.proper.single address info.sender
    change (s.notebooks.sent address).count info.sender ≤ 1 at hone
    omega
  have hrec := (hn.agree address info.sender).symm.trans hsent
  change (listed _ _ _).count _ = _ at hsent hrec
  rw [listed_of_lookup _ hd] at hsent
  rw [listed_of_lookup _ hready.sender] at hrec
  refine ⟨hne, hready.sender, hd, hrec, hsent, ?_, Finmap.lookup_insert _, ?_, rfl⟩
  · exact (Finmap.lookup_insert_of_ne _ hne.symm).trans (Finmap.lookup_insert _)
  · intro a hs ha
    exact (Finmap.lookup_insert_of_ne _ ha).trans (Finmap.lookup_insert_of_ne _ hs)

/-- Accepting a request: when it succeeds, what it then does, and how it can fail. -/
structure Acceptance (env : Env) (s : Storage) (info : MessageInfo) (address : Addr) : Prop where
  succeeds_iff : (∃ r s', (Core.execute env info (.acceptRequest address)).Returns s r s') ↔
    info.funds = [] ∧ ∃ c, s.contactInfo.lookup info.sender = some c ∧ address ∈ c.receivedRequests
  completes : ∀ r s', (Core.execute env info (.acceptRequest address)).Returns s r s' →
    ∃ c d, Completed s s' info.sender address c d
  refused : ∀ e s', (Core.execute env info (.acceptRequest address)).Aborts s e s' →
    (e = .error (.generic "Funds not accepted") ∨ e = .error (.generic "Profile does not exist") ∨
      e = .error (.generic "No request found")) ∧ s' = s

/-- Accepting a request completes the handshake, in every state reached and for every sender. -/
theorem acceptance_completes (hr : Run (rwa env) h s) (info : MessageInfo) (address : Addr) :
    Acceptance env s info address := by
  have hn := notebooks_reciprocal hr
  refine ⟨⟨?_, ?_⟩, ?_, ?_⟩
  · intro hx
    obtain ⟨r, s', hx⟩ := hx
    obtain ⟨_, c, d, hready, _⟩ := (acceptRequest_returns info address s r s').mp hx
    exact ⟨hready.noFunds, c, hready.sender, hready.received⟩
  · intro hx
    obtain ⟨hf, c, hc, hm⟩ := hx
    exact acceptRequest_returns_of_received hn hf hc hm
  · intro r s' hx
    obtain ⟨_, c, d, hready, rfl⟩ := (acceptRequest_returns info address s r s').mp hx
    exact ⟨c, d, hready.completed hn⟩
  · intro e s' ha
    exact acceptRequest_aborts hn ha

/-- Alice has asked Bob, who has not answered yet. -/
def Sample.requested : List Call := Sample.profiles ++ [Sample.call Sample.alice (.createRequest Sample.bob)]

theorem acceptance_completes_of_requested :
    Acceptance Sample.env (Sample.storage Sample.requested) ⟨Sample.bob, []⟩ Sample.alice ∧
    (Sample.storage Sample.requested).receivedRequests Sample.bob = [Sample.alice] :=
  ⟨acceptance_completes (Sample.run Sample.requested (by decide)) ⟨Sample.bob, []⟩ Sample.alice, by decide⟩

end Handler
end ComdexRwa.Core
