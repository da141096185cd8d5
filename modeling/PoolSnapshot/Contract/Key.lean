import PoolSnapshot.Keccak

/-!
Where the storage contract keeps things: a key hashes a name and, for values kept per address, the
address after it.
-/
namespace PoolSnapshot.StorageKey

def perAddress (name : String) (a : Address) : Bytes := Bytes.ofText name ++ a.bytes

def contractAddress (name : String) : Bytes := Bytes.ofText "contract.address" ++ Bytes.ofText name

def ofAddress (name : String) (a : Address) : Hash := Keccak.hash (perAddress name a)

def ofContract (name : String) : Hash := Keccak.hash (contractAddress name)

/-- How often a minipool was penalised. -/
def penaltyCount : String := "network.penalties.penalty"

def penaltyRate : String := "minipool.penalty.rate"

end PoolSnapshot.StorageKey
