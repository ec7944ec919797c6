import ComdexRwa.Foundation.Word

/-! The chain's side of a call: addresses and coins, what a call is told, and what it answers.
Only the parts of these types that the contract reads or builds are kept. -/
namespace ComdexRwa.Core
open Foundation

abbrev U64 := Word 64
abbrev Uint128 := Word 128

/-- An address is its text. An address field of a message may hold any text at all. -/
structure Addr where
  text : String
  deriving DecidableEq, Repr

structure Coin where
  denom : String
  amount : Uint128
  deriving DecidableEq, Repr

/-- How much of one denomination a list of coins holds. -/
def Coin.total (denom : String) (coins : List Coin) : Nat :=
  ((coins.filter fun coin => coin.denom = denom).map fun coin => coin.amount.val).sum

theorem Coin.total_singleton (denom : String) (coin : Coin) :
    Coin.total denom [coin] = if coin.denom = denom then coin.amount.val else 0 := by
  by_cases hd : coin.denom = denom <;> simp [Coin.total, hd]

/-- The keys of maps. -/
inductive MapKey where
  | addr (key : Addr)
  | u64 (key : U64)
  deriving DecidableEq, Repr

/-- Where a value is stored: under the key of an item, or in a map under one of its keys. -/
inductive StorageKey where
  | item (storageKey : String)
  | map (storageKey : String) (key : MapKey)
  deriving DecidableEq, Repr

/-- Whatever is not found is named by its type and by where it should be; these two determine the text of
the error. -/
inductive StdError where
  | genericErr (msg : String)
  | notFound (type : String) (key : StorageKey)
  deriving DecidableEq, Repr

structure Env where
  contractAddress : Addr
  deriving DecidableEq, Repr

structure MessageInfo where
  sender : Addr
  funds : List Coin
  deriving DecidableEq, Repr

/-- Mint one token; `extension` is the metadata the token carries. -/
structure MintMsg (τ : Type) where
  tokenId : String
  owner : String
  tokenUri : Option String
  extension : τ
  deriving DecidableEq, Repr

/-- The two messages of a token contract that are ever built here. -/
inductive NftMsg (τ : Type) where
  | mint (msg : MintMsg τ)
  | transferNft (recipient tokenId : String)
  deriving DecidableEq, Repr

/-- A message the chain carries out after the call. The payload of `wasmExecute` stands for its
binary encoding, which determines it. -/
inductive CosmosMsg (μ : Type) where
  | bankSend (toAddress : String) (amount : List Coin)
  | wasmExecute (contractAddr : String) (msg : μ) (funds : List Coin)
  deriving DecidableEq, Repr

namespace CosmosMsg
variable {μ : Type}

def transfer : CosmosMsg μ → Option (String × List Coin)
  | .bankSend toAddress amount => some (toAddress, amount)
  | .wasmExecute .. => none

def execution : CosmosMsg μ → Option (String × μ)
  | .bankSend .. => none
  | .wasmExecute contractAddr msg _ => some (contractAddr, msg)

end CosmosMsg

structure Response (μ : Type) where
  messages : List (CosmosMsg μ)
  attributes : List (String × String)
  deriving DecidableEq, Repr

namespace Response
variable {μ : Type}

def new : Response μ := ⟨[], []⟩

def addMessage (r : Response μ) (m : CosmosMsg μ) : Response μ := ⟨r.messages ++ [m], r.attributes⟩

def addAttribute (r : Response μ) (key value : String) : Response μ :=
  ⟨r.messages, r.attributes ++ [(key, value)]⟩

/-- The transfers a response asks the bank for: to whom, and which coins. -/
def sends (r : Response μ) : List (String × List Coin) := r.messages.filterMap CosmosMsg.transfer

/-- The calls a response makes on other contracts: whom, and with what payload. -/
def executes (r : Response μ) : List (String × μ) := r.messages.filterMap CosmosMsg.execution

/-- A response without messages calls nobody. -/
theorem executes_of_messages {r : Response μ} (h : r.messages = []) : r.executes = [] := by
  rw [executes, h]
  rfl

/-- All coins a response sends out, and those among them for one receiver. -/
def sentCoins (r : Response μ) : List Coin := r.sends.flatMap Prod.snd

def sentTo (r : Response μ) (receiver : Addr) : List Coin :=
  (r.sends.filter fun send => send.1 = receiver.text).flatMap Prod.snd

end Response
end ComdexRwa.Core
