import GsnNode.AddressText

/-! `netspace_node` and `netspace_table`. Enumerations with underlying type `char`
may hold any byte, so they are kept as that byte. -/

set_option autoImplicit false

namespace GsnNode
open FuelLoop

structure NetnodeType where
  raw : UInt8
  deriving DecidableEq, Repr

namespace NetnodeType
def undefined : NetnodeType := ⟨0⟩
def root : NetnodeType := ⟨1⟩
def org : NetnodeType := ⟨2⟩
def trusted : NetnodeType := ⟨3⟩
def georoot : NetnodeType := ⟨4⟩
def final : NetnodeType := ⟨5⟩
end NetnodeType

structure ServiceProtocol where
  raw : UInt8
  deriving DecidableEq, Repr

namespace ServiceProtocol
def dvsp : ServiceProtocol := ⟨0⟩
def http : ServiceProtocol := ⟨1⟩
end ServiceProtocol

structure NetspaceNode (V6 : Type) where
  type : NetnodeType
  addr : NetspaceAddr V6
  hostname : Text
  proto : ServiceProtocol
  suid : Text
  deriving DecidableEq

namespace NetspaceNode
variable {V6 : Type} (asio : Ipv6Text V6)

def empty : NetspaceNode V6 := ⟨.undefined,.v4 default,[],.dvsp,[]⟩

/-- `netspace_node(type, host, address, proto)` with the address as a text. -/
def ofHost (type : NetnodeType) (host address : Text) (proto : ServiceProtocol) :
    Call (NetspaceNode V6) := do
  let addr ← NetspaceAddr.fromString asio address
  pure ⟨type,addr,host,proto,[]⟩

structure EntryState (V6 : Type) where
  i : Nat
  offset : Int
  state : Nat
  node : NetspaceNode V6

/-- `++i` on an `unsigned int` -/
def incr (i : Nat) : Nat := (i + 1) % 2 ^ 32

/-- `i - offset`, computed as `unsigned int` -/
def distance (i : Nat) (offset : Int) : Nat := ((i - offset) % 2 ^ 32).toNat

def entryTurn (entry : Text) (s : EntryState V6) :
    Call (Turn (EntryState V6) (NetspaceNode V6)) :=
  if s.i < entry.length then
    if entry.getD s.i nul = bar then
      if s.state = 0 then do
        let suid ← substr entry (sizeOfInt s.offset) s.i
        -- the counter moves on here and once more at the end of the turn
        let i := incr s.i
        pure (.next ⟨incr i,intOfNat i,1,{ s.node with suid := suid }⟩)
      else if s.state = 1 then do
        let hostname ← substr entry (sizeOfInt s.offset) (distance s.i s.offset)
        let rest ← substr entry (incr s.i) entry.length
        let addr ← NetspaceAddr.fromString asio rest
        pure (.done { s.node with hostname := hostname, addr := addr })
      else pure (.next { s with i := incr s.i, state := s.state + 1 })
    else pure (.next { s with i := incr s.i })
  else pure (.done s.node)

/-- `netspace_node(std::string entry)`. A counter that wraps goes over the text
at most twice before it has met two separators or meets none. -/
def ofEntry (entry : Text) : Call (NetspaceNode V6) :=
  ofLoop (run (entryTurn asio entry) (2 * entry.length + 2) ⟨0,0,0,empty⟩)

/-! ### The integers of the parser -/

theorem sizeOfInt_natCast {n : Nat} (h : n < 2 ^ 64) : sizeOfInt (n : Int) = n := by
  rw [sizeOfInt, Int.emod_eq_of_lt (by omega) (by exact_mod_cast h), Int.toNat_natCast]

theorem intOfNat_small {n : Nat} (h : n < 2 ^ 31) : intOfNat n = n := by
  rw [intOfNat, Nat.mod_eq_of_lt (by omega), if_pos h]

theorem sizeOfInt_intOfNat_big {n : Nat} (h : 2 ^ 31 ≤ n) (h' : n < 2 ^ 32) :
    maxStringSize < sizeOfInt (intOfNat n) := by
  have hneg : intOfNat n = (n : Int) - 2 ^ 32 := by
    rw [intOfNat, Nat.mod_eq_of_lt h', if_neg (by omega)]
  have hsize : ((n : Int) - 2 ^ 32) % 2 ^ 64 = (n : Int) - 2 ^ 32 + 2 ^ 64 := by
    rw [← Int.add_emod_right, Int.emod_eq_of_lt (by omega) (by omega)]
  rw [sizeOfInt, hneg, hsize, maxStringSize]
  omega

theorem distance_of_le {i k : Nat} (h : k ≤ i) (hi : i < 2 ^ 32) : distance i k = i - k := by
  simp only [distance]
  omega

end NetspaceNode

/-! ### The table -/

abbrev NetspaceTable (V6 : Type) := List (NetspaceNode V6)

namespace NetspaceTable
variable {V6 : Type} [DecidableEq V6]

/-- Iterators are positions, the past-the-end iterator is the length. -/
def findAddr (table : NetspaceTable V6) (addr : NetspaceAddr V6) : Nat :=
  table.findIdx fun v => v.addr = addr

/-- `find_addr(const std::string&)` is `noexcept`. -/
def findAddrText (asio : Ipv6Text V6) (table : NetspaceTable V6) (addr : Text) : Call Nat :=
  match NetspaceAddr.fromString asio addr with
  | .ok addr => .ok (table.findAddr addr)
  | .error _ => .error .terminates

def findHost (table : NetspaceTable V6) (host : Text) : Nat :=
  table.findIdx fun v => v.hostname = host

def findSuid (table : NetspaceTable V6) (suid : Text) : Nat :=
  table.findIdx fun v => v.suid = suid

def addNode (table : NetspaceTable V6) (node : NetspaceNode V6) : NetspaceTable V6 :=
  table ++ [node]

def eraseNode (table : NetspaceTable V6) (it : Nat) : NetspaceTable V6 :=
  if it = table.length then table else table.eraseIdx it

def node? (table : NetspaceTable V6) (it : Nat) : Option (NetspaceNode V6) := table[it]?

end NetspaceTable
end GsnNode
