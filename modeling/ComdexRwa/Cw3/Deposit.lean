import ComdexRwa.Core.Chain
import ComdexRwa.Foundation.Transfers

/-! Deposits for proposals: a multisig checks that one has been paid, or takes it, and gives it back. What it
holds for others are the deposits that it has not given back. -/
namespace ComdexRwa.Cw3
open Foundation Transfer
open ComdexRwa.Core (Addr Uint128 Coin StdError MessageInfo CosmosMsg)

inductive Denom where
  | native (denom : String)
  | cw20 (address : Addr)
  deriving DecidableEq, Repr

inductive UncheckedDenom where
  | native (denom : String)
  | cw20 (address : String)
  deriving DecidableEq, Repr

/-- The messages of a token contract that are built for deposits. -/
inductive Cw20ExecuteMsg where
  | transfer (recipient : String) (amount : Uint128)
  | transferFrom (owner recipient : String) (amount : Uint128)
  deriving DecidableEq, Repr

structure DepositInfo where
  amount : Uint128
  denom : Denom
  refundFailedProposals : Bool
  deriving DecidableEq, Repr

structure UncheckedDepositInfo where
  amount : Uint128
  denom : UncheckedDenom
  refundFailedProposals : Bool
  deriving DecidableEq, Repr

/-- `π` are the errors of payments. -/
inductive DepositError (π : Type) where
  | zeroDeposit
  | invalidCw20
  | payment (e : π)
  | invalidDeposit
  deriving DecidableEq, Repr

/-- What is asked of the chain to check a deposit: whether a text is an address, and whether a token contract
at an address describes itself. -/
structure Deps (τ : Type) where
  addrValidate : String → Except StdError Addr
  queryTokenInfo : Addr → Except StdError τ

section Model
variable {τ π : Type}

def UncheckedDenom.intoChecked (deps : Deps τ) : UncheckedDenom → Except StdError Denom
  | .native denom => pure (.native denom)
  | .cw20 addr => do
    let addr ← deps.addrValidate addr
    let _info ← deps.queryTokenInfo addr
    pure (.cw20 addr)

def UncheckedDepositInfo.intoChecked (deps : Deps τ) (deposit : UncheckedDepositInfo) :
    Except (DepositError π) DepositInfo :=
  if deposit.amount.val = 0 then throw .zeroDeposit
  else do
    let denom ← (deposit.denom.intoChecked deps).mapError fun _ => .invalidCw20
    pure ⟨deposit.amount, denom, deposit.refundFailedProposals⟩

namespace DepositInfo

/-- A deposit of tokens is not paid along with the call, and then nothing is checked. -/
def checkNativeDepositPaid (mustPay : MessageInfo → String → Except π Uint128) (deposit : DepositInfo)
    (info : MessageInfo) : Except (DepositError π) Unit :=
  match deposit.denom with
  | .native denom => do
    let paid ← (mustPay info denom).mapError .payment
    if paid ≠ deposit.amount then throw .invalidDeposit else pure ()
  | .cw20 _ => pure ()

def getTakeDepositMessages (deposit : DepositInfo) (depositor contract : Addr) :
    Except StdError (List (CosmosMsg Cw20ExecuteMsg)) :=
  match deposit.denom with
  | .cw20 address =>
    if deposit.amount.val = 0 then pure []
    else pure [.wasmExecute address.text (.transferFrom depositor.text contract.text deposit.amount) []]
  | .native _ => pure []

def getReturnDepositMessage (deposit : DepositInfo) (depositor : Addr) :
    Except StdError (CosmosMsg Cw20ExecuteMsg) :=
  match deposit.denom with
  | .native denom => pure (.bankSend depositor.text [⟨denom, deposit.amount⟩])
  | .cw20 address => pure (.wasmExecute address.text (.transfer depositor.text deposit.amount) [])

end DepositInfo
end Model

/-! What the messages move. -/

/-- Coins of the bank, and tokens of a contract. -/
inductive Holding where
  | coin (denom : String)
  | token (contractAddr : String)
  deriving DecidableEq, Repr

abbrev Movement := Transfer Holding String

def coinMovements (sender receiver : String) (coins : List Coin) : List Movement :=
  coins.map fun coin => ⟨.coin coin.denom, sender, receiver, coin.amount.val⟩

/-- The bank and the token contracts, which are not part of the program: what may move when a call brings coins
to a contract, and when a message of a contract is carried out. -/
structure Ledger where
  attached : MessageInfo → Addr → List Movement → Prop
  carriedOut : Addr → CosmosMsg Cw20ExecuteMsg → List Movement → Prop

/-- What they say of themselves. The bank hands over the coins that are named, and a token contract that moves
tokens at all moves the amount named, from the caller or from an owner on whose behalf the caller moves them,
whatever it does in between. -/
structure Ledger.Documented (ledger : Ledger) : Prop where
  attached : ∀ info contract moved, ledger.attached info contract moved →
    Alike moved (coinMovements info.sender.text contract.text info.funds)
  bankSend : ∀ contract toAddress coins moved, ledger.carriedOut contract (.bankSend toAddress coins) moved →
    Alike moved (coinMovements contract.text toAddress coins)
  transfer : ∀ contract token recipient amount moved,
    ledger.carriedOut contract (.wasmExecute token (.transfer recipient amount) []) moved →
      Alike moved [⟨.token token, contract.text, recipient, amount.val⟩]
  transferFrom : ∀ contract token owner recipient amount moved,
    ledger.carriedOut contract (.wasmExecute token (.transferFrom owner recipient amount) []) moved →
      Alike moved [⟨.token token, owner, recipient, amount.val⟩]

def Denom.holding : Denom → Holding
  | .native denom => .coin denom
  | .cw20 address => .token address.text

/-- A deposit, and the call that it is made with. -/
structure Deposit where
  deposit : DepositInfo
  info : MessageInfo
  deriving DecidableEq, Repr

namespace Deposit
variable {τ π : Type} {deps : Deps τ} {mustPay : MessageInfo → String → Except π Uint128} {contract : Addr}
  {ledger : Ledger} {moved : List Movement}

/-- The deposit is one that has been checked, and the call passes the check for it. -/
structure Accepted (deps : Deps τ) (mustPay : MessageInfo → String → Except π Uint128) (d : Deposit) : Prop where
  checked : ∃ unchecked : UncheckedDepositInfo,
    unchecked.intoChecked deps = (.ok d.deposit : Except (DepositError π) DepositInfo)
  paid : d.deposit.checkNativeDepositPaid mustPay d.info = .ok ()

/-- The deposit is made: these are the movements of the coins of the call, and of the messages that then take it. -/
def Made (ledger : Ledger) (contract : Addr) (d : Deposit) (moved : List Movement) : Prop :=
  ∃ coins messages taken, ledger.attached d.info contract coins ∧
    d.deposit.getTakeDepositMessages d.info.sender contract = .ok messages ∧
    List.Forall₂ (ledger.carriedOut contract) messages taken ∧ moved = coins ++ taken.flatten

/-- The deposit is given back, with these movements. -/
def GivenBack (ledger : Ledger) (contract : Addr) (d : Deposit) (moved : List Movement) : Prop :=
  ∃ message, d.deposit.getReturnDepositMessage d.info.sender = .ok message ∧ ledger.carriedOut contract message moved

/-- The deposit as one movement. -/
def owed (contract : Addr) (d : Deposit) : Movement :=
  ⟨d.deposit.denom.holding, d.info.sender.text, contract.text, d.deposit.amount.val⟩

/-- Coins sent along with a deposit of tokens are not part of it. -/
def kept (contract : Addr) (d : Deposit) : List Movement :=
  match d.deposit.denom with
  | .native _ => []
  | .cw20 _ => coinMovements d.info.sender.text contract.text d.info.funds

/-- A payment as documented: exactly one coin comes with the call, it is of the denomination, and it is not
empty. -/
def PaysExactly (mustPay : MessageInfo → String → Except π Uint128) : Prop :=
  ∀ info denom amount, mustPay info denom = .ok amount ↔ info.funds = [⟨denom, amount⟩] ∧ 0 < amount.val

private theorem intoChecked_pos {unchecked : UncheckedDepositInfo} {deposit : DepositInfo}
    (h : unchecked.intoChecked deps = (.ok deposit : Except (DepositError π) DepositInfo)) :
    0 < deposit.amount.val := by
  unfold UncheckedDepositInfo.intoChecked at h
  split at h
  next => cases h
  next hamount =>
    cases hdenom : unchecked.denom.intoChecked deps with
    | error e =>
      rw [hdenom] at h
      cases h
    | ok denom =>
      rw [hdenom] at h
      cases h
      exact Nat.pos_of_ne_zero hamount

private theorem funds_of_paid (hpay : PaysExactly mustPay) {deposit : DepositInfo} {info : MessageInfo}
    {denom : String} (h : deposit.checkNativeDepositPaid mustPay info = .ok ())
    (hdenom : deposit.denom = .native denom) :
    info.funds = [⟨denom, deposit.amount⟩] := by
  unfold DepositInfo.checkNativeDepositPaid at h
  rw [hdenom] at h
  cases hpaid : mustPay info denom with
  | error e =>
    simp only [hpaid] at h
    cases h
  | ok paid =>
    simp only [hpaid] at h
    by_cases hne : paid ≠ deposit.amount
    · exact absurd h (by simp [hne, Except.mapError, bind, Except.bind, throw, throwThe, MonadExceptOf.throw])
    · rw [← not_not.mp hne]
      exact ((hpay info denom paid).mp hpaid).1

/-- What an accepted deposit moves is the deposit itself, and what is kept. -/
private theorem Made.alike (hpay : PaysExactly mustPay) (hledger : ledger.Documented) {d : Deposit}
    (h : d.Accepted deps mustPay) (hmade : d.Made ledger contract moved) :
    Alike moved (d.owed contract :: d.kept contract) := by
  obtain ⟨⟨unchecked, hchecked⟩, hpaid⟩ := h
  obtain ⟨coins, messages, taken, hcoins, hmessages, htaken, rfl⟩ := hmade
  have hattached := hledger.attached _ _ _ hcoins
  unfold DepositInfo.getTakeDepositMessages at hmessages
  intro holding account
  cases hdenom : d.deposit.denom with
  | native denom =>
    rw [hdenom] at hmessages
    cases hmessages
    cases htaken
    rw [List.flatten_nil, List.append_nil, hattached, funds_of_paid hpay hpaid hdenom, kept, owed, hdenom]
    rfl
  | cw20 address =>
    rw [hdenom] at hmessages
    simp only [if_neg (Nat.ne_of_gt (intoChecked_pos hchecked))] at hmessages
    cases hmessages
    obtain ⟨transferred, _, htransferred, hnone, rfl⟩ := List.forall₂_cons_left_iff.mp htaken
    cases hnone
    have htransfer := hledger.transferFrom _ _ _ _ _ _ htransferred
    rw [List.flatten_cons, List.flatten_nil, List.append_nil, changes_append, hattached, htransfer, kept, owed, hdenom,
      changes_cons, changes_cons, changes_nil, add_zero, add_comm]
    rfl

private theorem GivenBack.alike (hledger : ledger.Documented) {d : Deposit} (h : d.GivenBack ledger contract moved) :
    Alike moved [(d.owed contract).back] := by
  obtain ⟨message, hmessage, hmoved⟩ := h
  unfold DepositInfo.getReturnDepositMessage at hmessage
  unfold owed
  cases hdenom : d.deposit.denom with
  | native denom =>
    rw [hdenom] at hmessage
    cases hmessage
    exact hledger.bankSend _ _ _ _ hmoved
  | cw20 address =>
    rw [hdenom] at hmessage
    cases hmessage
    exact hledger.transfer _ _ _ _ _ hmoved

/-- The messages can always be built. -/
private theorem messages_built (d : Deposit) (contract : Addr) :
    (∃ messages, d.deposit.getTakeDepositMessages d.info.sender contract = .ok messages) ∧
      ∃ message, d.deposit.getReturnDepositMessage d.info.sender = .ok message := by
  unfold DepositInfo.getTakeDepositMessages DepositInfo.getReturnDepositMessage
  cases d.deposit.denom with
  | native denom => exact ⟨⟨_, rfl⟩, _, rfl⟩
  | cw20 address =>
    refine ⟨?_, _, rfl⟩
    by_cases hzero : d.deposit.amount.val = 0
    · exact ⟨_, if_pos hzero⟩
    · exact ⟨_, if_neg hzero⟩

/-- What is held for the depositors. -/
def heldFor (outstanding : List Deposit) (holding : Holding) : Nat :=
  ((outstanding.filter fun d => d.deposit.denom.holding = holding).map fun d => d.deposit.amount.val).sum

private theorem changes_owed {outstanding : List Deposit}
    (hothers : ∀ d ∈ outstanding, d.info.sender.text ≠ contract.text) (holding : Holding) :
    changes (outstanding.map (owed contract)) holding contract.text = heldFor outstanding holding := by
  rw [changes_received, List.filter_map, List.map_map]
  · rfl
  · intro t ht
    obtain ⟨d, hd, rfl⟩ := List.mem_map.mp ht
    exact hothers d hd
  · intro t ht
    obtain ⟨d, -, rfl⟩ := List.mem_map.mp ht
    rfl

private theorem kept_sender {d : Deposit} {t : Movement} (h : t ∈ d.kept contract) :
    t.sender = d.info.sender.text := by
  unfold kept at h
  split at h
  · cases h
  · obtain ⟨coin, -, rfl⟩ := List.mem_map.mp h
    rfl

/-- Whatever deposits are made and whichever of them are given back, everyone's balances end up as if only the
outstanding ones had been made, apart from coins sent along with deposits of tokens, which are kept. So a multisig
that makes no deposits with itself holds at least what it owes. The messages for all this can always be built. -/
theorem deposits_accounted (hpay : PaysExactly mustPay) (hledger : ledger.Documented) (contract : Addr)
    {made returned outstanding : List Deposit} (hmade : ∀ d ∈ made, d.Accepted deps mustPay)
    (hsplit : made.Perm (returned ++ outstanding)) {ins outs : List (List Movement)}
    (hins : List.Forall₂ (Made ledger contract) made ins)
    (houts : List.Forall₂ (GivenBack ledger contract) returned outs) :
    Alike (ins.flatten ++ outs.flatten) (outstanding.map (owed contract) ++ made.flatMap (kept contract)) ∧
      ((∀ d ∈ made, d.info.sender.text ≠ contract.text) → ∀ holding,
        (heldFor outstanding holding : Int) ≤ changes (ins.flatten ++ outs.flatten) holding contract.text) ∧
      ∀ d : Deposit, (∃ messages, d.deposit.getTakeDepositMessages d.info.sender contract = .ok messages) ∧
        ∃ message, d.deposit.getReturnDepositMessage d.info.sender = .ok message := by
  have hpaid : List.Forall₂ (fun d moved => Alike moved (d.owed contract :: d.kept contract)) made ins :=
    ((List.forall₂_and_left made ins).mpr ⟨hmade, hins⟩).imp fun _ _ h => h.2.alike hpay hledger h.1
  have hchanges := changes_outstanding hsplit hpaid (houts.imp fun _ _ => GivenBack.alike hledger)
  refine ⟨hchanges, fun hothers holding => ?_, fun d => messages_built d contract⟩
  rw [hchanges, changes_append, changes_owed]
  · apply le_add_of_nonneg_right
    apply changes_nonneg
    intro t ht
    obtain ⟨d, hd, ht⟩ := List.mem_flatMap.mp ht
    rw [kept_sender ht]
    exact hothers d hd
  · intro d hd
    exact hothers d (hsplit.mem_iff.mpr (List.mem_append_right _ hd))

end Deposit

namespace Deposit.Sample

/-- Every text but the empty one is an address, and every token contract answers. -/
def deps : Deps Unit where
  addrValidate text := if text = "" then .error (.genericErr "empty address") else .ok ⟨text⟩
  queryTokenInfo _ := .ok ()

def mustPay (info : MessageInfo) (denom : String) : Except String Uint128 :=
  match info.funds with
  | [] => .error "No funds sent"
  | [coin] =>
    if coin.amount.val = 0 then .error "No funds sent"
    else if coin.denom ≠ denom then .error "Must send reserve token" else .ok coin.amount
  | _ => .error "Sent more than one denomination"

private theorem paysExactly : PaysExactly mustPay := by
  intro info denom amount
  unfold mustPay
  split
  next hfunds => simp [hfunds]
  next coin hfunds =>
    rw [hfunds, List.singleton_inj]
    split
    next hzero =>
      constructor
      · intro h
        cases h
      · rintro ⟨rfl, hpos⟩
        exact absurd hzero (Nat.ne_of_gt hpos)
    next hzero =>
      split
      next hdenom =>
        constructor
        · intro h
          cases h
        · rintro ⟨rfl, -⟩
          exact absurd rfl hdenom
      next hdenom =>
        constructor
        · intro h
          cases h
          rw [← not_not.mp hdenom]
          exact ⟨rfl, Nat.pos_of_ne_zero hzero⟩
        · rintro ⟨rfl, -⟩
          rfl
  next hempty hmany =>
    constructor
    · intro h
      cases h
    · rintro ⟨hfunds, -⟩
      exact absurd hfunds (hmany _)

/-- Coins are deposited, and then tokens with a coin sent along. -/
def coins : Deposit := ⟨⟨5, .native "ucmdx", true⟩, ⟨⟨"ann"⟩, [⟨"ucmdx", 5⟩]⟩⟩
def tokens : Deposit := ⟨⟨7, .cw20 ⟨"token"⟩, true⟩, ⟨⟨"bob"⟩, [⟨"ucmdx", 3⟩]⟩⟩

/-- A ledger that is as documented: coins go where they are sent, and tokens too. -/
def movement (contractAddr caller : String) : Cw20ExecuteMsg → Movement
  | .transfer recipient amount => ⟨.token contractAddr, caller, recipient, amount.val⟩
  | .transferFrom owner recipient amount => ⟨.token contractAddr, owner, recipient, amount.val⟩

def movements (caller : Addr) : CosmosMsg Cw20ExecuteMsg → List Movement
  | .bankSend toAddress amount => coinMovements caller.text toAddress amount
  | .wasmExecute contractAddr msg funds =>
    coinMovements caller.text contractAddr funds ++ [movement contractAddr caller.text msg]

def ledger : Ledger where
  attached info contract moved := moved = coinMovements info.sender.text contract.text info.funds
  carriedOut contract message moved := moved = movements contract message

private theorem documented : ledger.Documented where
  attached _ _ _ h := h ▸ fun _ _ => rfl
  bankSend _ _ _ _ h := h ▸ fun _ _ => rfl
  transfer _ _ _ _ _ h := h ▸ fun _ _ => rfl
  transferFrom _ _ _ _ _ _ h := h ▸ fun _ _ => rfl

private theorem coins_accepted : coins.Accepted deps mustPay := ⟨⟨⟨5, .native "ucmdx", true⟩, rfl⟩, by decide⟩
private theorem tokens_accepted : tokens.Accepted deps mustPay := ⟨⟨⟨7, .cw20 "token", true⟩, rfl⟩, rfl⟩

end Deposit.Sample

namespace Deposit

/-- What comes in with the two deposits, and what goes out when the first is given back. -/
def Sample.ins : List (List Movement) :=
  [[⟨.coin "ucmdx", "ann", "multisig", 5⟩],
    [⟨.coin "ucmdx", "bob", "multisig", 3⟩, ⟨.token "token", "bob", "multisig", 7⟩]]

def Sample.outs : List (List Movement) := [[⟨.coin "ucmdx", "multisig", "ann", 5⟩]]

theorem deposits_accounted_of_two :
    changes (Sample.ins.flatten ++ Sample.outs.flatten) (.token "token") "multisig" = 7 ∧
      changes (Sample.ins.flatten ++ Sample.outs.flatten) (.coin "ucmdx") "multisig" = 3 ∧
        changes (Sample.ins.flatten ++ Sample.outs.flatten) (.coin "ucmdx") "ann" = 0 := by
  have hmade : ∀ d ∈ [Sample.coins, Sample.tokens], d.Accepted Sample.deps Sample.mustPay := by
    intro d hd
    rcases List.mem_pair.mp hd with rfl | rfl
    · exact Sample.coins_accepted
    · exact Sample.tokens_accepted
  have hcoins : Made Sample.ledger ⟨"multisig"⟩ Sample.coins [⟨.coin "ucmdx", "ann", "multisig", 5⟩] :=
    ⟨_, [], [], rfl, rfl, .nil, rfl⟩
  have htokens : Made Sample.ledger ⟨"multisig"⟩ Sample.tokens
      [⟨.coin "ucmdx", "bob", "multisig", 3⟩, ⟨.token "token", "bob", "multisig", 7⟩] :=
    ⟨_, _, [_], rfl, rfl, .cons rfl .nil, rfl⟩
  have hback : GivenBack Sample.ledger ⟨"multisig"⟩ Sample.coins [⟨.coin "ucmdx", "multisig", "ann", 5⟩] :=
    ⟨_, rfl, rfl⟩
  obtain ⟨hchanges, -⟩ := deposits_accounted Sample.paysExactly Sample.documented ⟨"multisig"⟩ hmade
    (List.Perm.refl ([Sample.coins] ++ [Sample.tokens])) (.cons hcoins (.cons htokens .nil)) (.cons hback .nil)
  refine ⟨?_, ?_, ?_⟩
  all_goals
    exact (hchanges _ _).trans (by decide)

end Deposit
end ComdexRwa.Cw3
