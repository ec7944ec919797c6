import ComdexRwa.Core.Instalments

/-! Whether every invoice can still come to an end: something is left to pay of it, and paying
that settles it. -/
namespace ComdexRwa.Core
open Foundation

/-- One payment of something settles the invoice and hands its token to the creditor. -/
def Settleable (s : Storage) (k : U64) (config : Config) (invoice : Invoice) : Prop :=
  ∃ (amount : Uint128) (r : Reply) (s' : Storage), 0 < amount ∧
    (payInvoice ⟨invoice.payeeAddress, [⟨invoice.receivable.denom, amount⟩]⟩ k).Returns s r s' ∧
    (∃ paid, s'.invoice.lookup k = some paid ∧ paid.status = .paid) ∧
    r.executes = [(config.nftAddress.text, .transferNft invoice.from.text k.decimal)]

/-- No invoice is at a dead end: there is something left of every unpaid one, and every one that is
open to payment can be settled at once. -/
structure NoDeadEnd (s : Storage) : Prop where
  left : ∀ k invoice, s.invoice.lookup k = some invoice → invoice.status ≠ .paid →
    invoice.amountPaid.amount < invoice.receivable.amount
  settleable : ∀ k config invoice, Payable s k config invoice → Settleable s k config invoice

/-- A call that raises an invoice over nothing. -/
def worthless (s : Storage) (c : Call) : Prop :=
  ∃ info terms b, c = .execute info (.createInvoice terms) ∧ InvoiceReady s info terms b ∧
    terms.receivable.amount = 0

section Laws
variable {env : Env} {h : History} {s s' : Storage} {k : U64} {config : Config} {invoice old new : Invoice}

/-- Paying what is left settles an invoice. -/
private theorem Payable.settleable (hp : Payable s k config invoice)
    (hlt : invoice.amountPaid.amount < invoice.receivable.amount) : Settleable s k config invoice := by
  rw [Word.lt_iff] at hlt
  have htotal : invoice.receivable.amount.val = invoice.amountPaid.amount.val +
      (invoice.receivable.amount.minus invoice.amountPaid.amount).val := by
    rw [Word.val_minus]
    omega
  refine ⟨invoice.receivable.amount.minus invoice.amountPaid.amount, _, _, ?_,
    (payInvoice_returns _ _ _ _ _).mpr ⟨_, hp.ready htotal (le_refl _), rfl, rfl⟩,
    ⟨_, Finmap.lookup_insert _, if_pos rfl⟩, ?_⟩
  · rw [Word.lt_iff, Word.val_zero, Word.val_minus]
    omega
  · rw [executes_payInvoiceReply, if_pos rfl]

private theorem noDeadEnd_of_left (hleft : ∀ k invoice, s.invoice.lookup k = some invoice → invoice.status ≠ .paid →
    invoice.amountPaid.amount < invoice.receivable.amount) : NoDeadEnd s := by
  refine ⟨hleft, fun k config invoice hp => hp.settleable (hleft k invoice hp.stored ?_)⟩
  rcases hp.running with hst | hst <;> rw [hst] <;> decide

/-- Acceptance and payment leave something to pay, unless they settle the invoice. -/
private theorem Rewrite.left {c : Call} (hw : Rewrite s k c old new)
    (hleft : old.status ≠ .paid → old.amountPaid.amount < old.receivable.amount) (hopen : new.status ≠ .paid) :
    new.amountPaid.amount < new.receivable.amount := by
  cases hw with
  | accept hready =>
    apply hleft
    rw [hready.raised]
    decide
  | @credit info b hready =>
    rcases b.invoice.credited_status b.total with ⟨_, hst⟩ | ⟨hne, _⟩
    · exact (hopen hst).elim
    · exact lt_of_le_of_ne hready.within hne

private theorem raised_left_iff (terms : InvoiceTerms) (sender : Addr) (id : U64) :
    (terms.raised sender id).amountPaid.amount < (terms.raised sender id).receivable.amount ↔
      terms.receivable.amount ≠ 0 := by
  change (0 : Uint128) < terms.receivable.amount ↔ _
  rw [Word.lt_iff, Word.val_zero, ne_eq, Word.ext_iff, Word.val_zero]
  exact Nat.pos_iff_ne_zero

/-- A call leaves no dead end exactly when it raises no invoice over nothing. -/
private theorem noDeadEnd_iff {c : Call} {r : Reply} (he : Effect env s c r s') (hn : NoDeadEnd s) :
    NoDeadEnd s' ↔ ¬ worthless s c := by
  constructor
  · intro hn' hx
    obtain ⟨info, terms, b, rfl, _, hz⟩ := hx
    cases he with
    | createInvoice hready =>
      have hlt := hn'.left _ _ (Finmap.lookup_insert _) fun hst => (nomatch hst)
      exact (raised_left_iff _ _ _).mp hlt hz
  · intro hno
    apply noDeadEnd_of_left
    intro k invoice hk hopen
    rcases he.invoiceMove.origin hk with hk | ⟨info, terms, b, hready, rfl, _, rfl⟩ | ⟨old, hw⟩
    · exact hn.left k invoice hk hopen
    · apply (raised_left_iff _ _ _).mpr
      intro hz
      exact hno ⟨info, terms, b, rfl, hready, hz⟩
    · exact hw.left (hn.left k old hw.stored) hopen

/-- No state of a run has a dead end exactly when the run raises no invoice over nothing. -/
theorem no_dead_end_iff (hr : Run (rwa env) h s) :
    (∀ e ∈ h, NoDeadEnd e.after) ↔ ∀ e ∈ h, ¬ worthless e.before e.call := by
  refine rwa_throughout (L := NoDeadEnd) (fun e he => he) ?_ ?_ ?_ ?_ hr
  · exact fun s c _ hx => effect_of_raises hx
  · intro info
    apply iff_of_true
    · exact noDeadEnd_of_left fun k invoice hk => (nomatch hk)
    · exact not_raises_of_opens rfl
  · intro h s c r s' _ hn he
    exact noDeadEnd_iff he hn
  · exact fun s c e hn => hn

end Laws

theorem no_dead_end_iff_of_settled :
    (∀ e ∈ Sample.history Sample.settled, NoDeadEnd e.after) ↔
      ∀ e ∈ Sample.history Sample.settled, ¬ worthless e.before e.call :=
  no_dead_end_iff (Sample.run Sample.settled (by decide))

namespace Sample

/-- An invoice over nothing, accepted. -/
def emptyTerms : InvoiceTerms := { terms 0 with receivable := ⟨"uusd", 0⟩ }

def emptied : List Call :=
  configured ++ [call alice (.createInvoice emptyTerms), call bob (.acceptInvoice invoiceId)]

def emptyInvoice : Invoice := { emptyTerms.raised alice invoiceId with status := .accepted }

private theorem payable_emptied : Payable (storage emptied) invoiceId ⟨⟨"nft"⟩, owner, assets⟩ emptyInvoice :=
  ⟨rfl, rfl, rfl, .inl rfl⟩

end Sample

/-- It is open to payment, and no payment of anything goes through. -/
theorem empty_invoice_unsettleable :
    Run (rwa Sample.env) (Sample.history Sample.emptied) (Sample.storage Sample.emptied) ∧
    Payable (Sample.storage Sample.emptied) Sample.invoiceId ⟨⟨"nft"⟩, Sample.owner, Sample.assets⟩
      Sample.emptyInvoice ∧
    ¬ Settleable (Sample.storage Sample.emptied) Sample.invoiceId ⟨⟨"nft"⟩, Sample.owner, Sample.assets⟩
      Sample.emptyInvoice := by
  refine ⟨Sample.run Sample.emptied (by decide), Sample.payable_emptied, ?_⟩
  rintro ⟨amount, r, s', hpos, hret, _⟩
  obtain ⟨b, hready, _⟩ := (payInvoice_returns _ _ _ _ _).mp hret
  have htotal := hready.total
  have hle := (Word.le_iff _ _).mp hready.within
  have hstored : Sample.emptyInvoice = b.invoice :=
    Option.some.inj (Sample.payable_emptied.stored.symm.trans hready.stored)
  have hfund : ⟨"uusd", amount⟩ = b.fund := List.singleton_inj.mp hready.single
  rw [← hstored, ← hfund] at htotal
  rw [← hstored] at hle
  rw [Word.lt_iff, Word.val_zero] at hpos
  change b.total.val = (0 : Uint128).val + amount.val at htotal
  change b.total.val ≤ (0 : Uint128).val at hle
  rw [Word.val_zero] at htotal hle
  omega

end ComdexRwa.Core
