import ComdexRwa.Core.ProfileFrame
import ComdexRwa.Core.Acceptance
import ComdexRwa.Core.Query

/-! What the queries over contacts give in the states that runs reach. Every address in the lists of a
profile has a profile of its own, since nobody is listed without listing the other party in return. -/
namespace ComdexRwa.Core
open Foundation Query

/-- The entry that describes an account by its own profile. -/
structure Describes (s : Storage) (contact : Addr) (entry : ContactResponse) : Prop where
  address : entry.address = contact
  profile : ∃ c, s.contactInfo.lookup contact = some c ∧ entry.name = c.name ∧ entry.companyName = c.companyName

/-- The three views of an account: one entry for each element of the list stored, in its order. -/
structure ContactViews (s : Storage) (address : Addr) (pending sent all : List ContactResponse) : Prop where
  pendingGiven : (getPendingContactRequests address).Gives s pending
  sentGiven : (getSentContactRequests address).Gives s sent
  allGiven : (getAllContacts address).Gives s all
  pending : List.Forall₂ (Describes s) (s.receivedRequests address) pending
  sent : List.Forall₂ (Describes s) (s.sentRequests address) sent
  all : List.Forall₂ (Describes s) (s.contacts address) all

section Views
variable {env : Env} {h : History} {s : Storage}

/-- One round, for a contact that has a profile under its own address. -/
private theorem listContact_gives {done : List Addr} {response : List ContactResponse} {contact : Addr}
    {c : ContactInfo}
    (hd : List.Forall₂ (Describes s) done response) (hc : s.contactInfo.lookup contact = some c)
    (howner : c.owner = contact) : ∃ response', (listContact response contact).Gives s response' ∧
      List.Forall₂ (Describes s) (done ++ [contact]) response' := by
  have hentry : Describes s contact ⟨c.name, c.owner, c.companyName⟩ := ⟨howner, c, hc, rfl, rfl⟩
  refine ⟨response ++ [⟨c.name, c.owner, c.companyName⟩], ?_, List.rel_append hd (.cons hentry .nil)⟩
  rw [listContact, gives_bind_of ((gives_load contactInfos contact s c).mpr hc), gives_pure]

/-- The loop over contacts all of whom have profiles. -/
private theorem listContacts_gives {contacts : List Addr}
    (hprofile : ∀ a ∈ contacts, ∃ c, s.contactInfo.lookup a = some c ∧ c.owner = a) :
    ∃ response, (contacts.foldlM listContact []).Gives s response ∧
      List.Forall₂ (Describes s) contacts response := by
  refine gives_foldlM (I := fun done response => List.Forall₂ (Describes s) done response) .nil ?_
  intro done contact rest response hcontacts hd
  obtain ⟨c, hc, howner⟩ := hprofile contact (by simp [hcontacts])
  exact listContact_gives hd hc howner

/-- A view goes through what the account's profile lists, if it has one. -/
private theorem viewContacts_gives_iff {list : ContactInfo → List Addr} {address : Addr}
    {response : List ContactResponse} :
    (viewContacts list address).Gives s response ↔
      ((listed list s.contactInfo address).foldlM listContact []).Gives s response :=
  gives_mayLoad_foldlM rfl fun _ => rfl

/-- One view of one account, with or without a profile. -/
theorem viewContacts_gives {list : ContactInfo → List Addr} {address : Addr}
    (hprofile : ∀ a ∈ listed list s.contactInfo address, ∃ c, s.contactInfo.lookup a = some c ∧ c.owner = a) :
    ∃ response, (viewContacts list address).Gives s response ∧
      List.Forall₂ (Describes s) (listed list s.contactInfo address) response := by
  obtain ⟨response, hgives, hd⟩ := listContacts_gives hprofile
  exact ⟨response, viewContacts_gives_iff.mpr hgives, hd⟩

/-- Whoever lists somebody has a profile of its own, under its own address. -/
theorem profile_of_listed (hr : Run (rwa env) h s) {list : ContactInfo → List Addr} {a b : Addr}
    (hb : b ∈ listed list s.contactInfo a) : ∃ c, s.contactInfo.lookup a = some c ∧ c.owner = a := by
  obtain ⟨c, hc⟩ := lookup_of_mem_listed hb
  exact ⟨c, hc, owned hr a c hc⟩

/-- The contact views are faithful in every state reached, for every account. -/
theorem contact_views (hr : Run (rwa env) h s) (address : Addr) :
    ∃ pending sent all, ContactViews s address pending sent all := by
  have hn := notebooks_reciprocal hr
  obtain ⟨pending, hpending, hp⟩ : ∃ response, (getPendingContactRequests address).Gives s response ∧
      List.Forall₂ (Describes s) (s.receivedRequests address) response := by
    apply viewContacts_gives
    intro a ha
    have hsent : address ∈ s.notebooks.sent a := hn.sent_iff.mpr ha
    exact profile_of_listed hr hsent
  obtain ⟨sent, hsent, hs⟩ : ∃ response, (getSentContactRequests address).Gives s response ∧
      List.Forall₂ (Describes s) (s.sentRequests address) response := by
    apply viewContacts_gives
    intro a ha
    have hreceived : address ∈ s.notebooks.received a := hn.sent_iff.mp ha
    exact profile_of_listed hr hreceived
  obtain ⟨all, hall, ha⟩ : ∃ response, (getAllContacts address).Gives s response ∧
      List.Forall₂ (Describes s) (s.contacts address) response := by
    apply viewContacts_gives
    intro a ha
    have hcontacts : address ∈ s.notebooks.contacts a := hn.contacts_iff.mp ha
    exact profile_of_listed hr hcontacts
  exact ⟨pending, sent, all, hpending, hsent, hall, hp, hs, ha⟩

end Views

/-- Bob, whom Alice has asked, sees her request. -/
theorem contact_views_of_requested :
    (∃ pending sent all, ContactViews (Sample.storage Sample.requested) Sample.bob pending sent all) ∧
    (Sample.storage Sample.requested).receivedRequests Sample.bob = [Sample.alice] :=
  ⟨contact_views (Sample.run Sample.requested (by decide)) Sample.bob, by decide⟩

end ComdexRwa.Core
