import Cobblestone.Lib.Result
import Cobblestone.Lib.Trace

namespace Cobblestone.Runtime

open Lib

inductive InsertError where
  | capacityExhausted
deriving DecidableEq, Repr

structure Slot (α : Type) where
  generation : UInt32
  value : Option α
  retired : Bool

structure Handle where
  index : UInt32
  generation : UInt32
deriving DecidableEq, Repr

-- The free list is a stack; its top is the head.
structure Arena (α : Type) where
  slots : List (Slot α)
  free : List UInt32
  len : Nat

def checkedSucc32 (n : UInt32) : Option UInt32 :=
  if n.toNat + 1 < UInt32.size then some (n + 1) else none

theorem checkedSucc32_toNat {n m : UInt32} (h : checkedSucc32 n = some m) :
    m.toNat = n.toNat + 1 := by
  unfold checkedSucc32 at h
  split at h
  · next hlt =>
    cases h
    rw [UInt32.toNat_add]
    exact Nat.mod_eq_of_lt (by simpa [UInt32.size] using hlt)
  · cases h

namespace Arena

variable {α : Type}

def new : Arena α := ⟨[], [], 0⟩

def setSlot (a : Arena α) (index : UInt32) (slot : Slot α) : Arena α :=
  { a with slots := a.slots.set index.toNat slot }

def insert (a : Arena α) (value : α) : Except InsertError Handle × Arena α :=
  match a.free with
  | index :: free =>
    match a.slots[index.toNat]? with
    | some slot =>
      (.ok ⟨index, slot.generation⟩,
        { slots := a.slots.set index.toNat { slot with value := some value }
          free := free
          len := a.len + 1 })
    -- An index out of bounds would panic; `Good` excludes it.
    | none => (.error .capacityExhausted, a)
  | [] =>
    if a.slots.length < UInt32.size then
      (.ok ⟨UInt32.ofNat a.slots.length, 1⟩,
        { slots := a.slots ++ [⟨1, some value, false⟩]
          free := []
          len := a.len + 1 })
    else (.error .capacityExhausted, a)

-- The slot a handle names, when the generation agrees.
def slotOf (a : Arena α) (h : Handle) : Option (Slot α) :=
  (a.slots[h.index.toNat]?).filter fun slot => slot.generation == h.generation

def get (a : Arena α) (h : Handle) : Option α := (a.slotOf h).bind Slot.value

def remove (a : Arena α) (h : Handle) : Option α × Arena α :=
  match a.slotOf h with
  | none => (none, a)
  | some slot =>
    match slot.value with
    | none => (none, a)
    | some value =>
      match checkedSucc32 slot.generation with
      | some next =>
        (some value,
          { slots := a.slots.set h.index.toNat { slot with value := none, generation := next }
            free := h.index :: a.free
            len := a.len - 1 })
      | none =>
        (some value,
          { slots := a.slots.set h.index.toNat { slot with value := none, retired := true }
            free := a.free
            len := a.len - 1 })

def update (a : Arena α) (h : Handle) (value : α) : Arena α :=
  match a.slotOf h with
  | none => a
  | some slot => a.setSlot h.index { slot with value := some value }

end Arena

end Cobblestone.Runtime

namespace Cobblestone.Runtime

open Lib

abbrev RuntimeId := UInt32
abbrev OwnershipEpoch := UInt64

def OwnershipEpoch.next (epoch : OwnershipEpoch) : Option OwnershipEpoch :=
  if epoch.toNat + 1 < UInt64.size then some (epoch + 1) else none

theorem OwnershipEpoch.next_toNat {epoch next : OwnershipEpoch}
    (h : OwnershipEpoch.next epoch = some next) : next.toNat = epoch.toNat + 1 := by
  unfold OwnershipEpoch.next at h
  split at h
  · next hlt =>
    cases h
    rw [UInt64.toNat_add]
    exact Nat.mod_eq_of_lt (by simpa [UInt64.size] using hlt)
  · cases h

inductive OwnershipError where
  | staleHandle
  | wrongOwner (requester current : RuntimeId)
  | staleEpoch (expected current : OwnershipEpoch)
  | epochExhausted
deriving DecidableEq, Repr

structure OwnershipMetadata where
  owner : RuntimeId
  epoch : OwnershipEpoch
deriving DecidableEq, Repr

structure OwnedValue (α : Type) where
  owner : RuntimeId
  epoch : OwnershipEpoch
  value : α

structure OwnedArena (α : Type) where
  arena : Arena (OwnedValue α)

-- What a command carries to name a value it may act on.
structure Grant where
  handle : Handle
  owner : RuntimeId
  epoch : OwnershipEpoch
deriving DecidableEq, Repr

def assertOwnerAndEpoch {α : Type} (state : OwnedValue α) (requester : RuntimeId)
    (expectedEpoch : OwnershipEpoch) : Except OwnershipError Unit :=
  if state.owner ≠ requester then .error (.wrongOwner requester state.owner)
  else if state.epoch ≠ expectedEpoch then .error (.staleEpoch expectedEpoch state.epoch)
  else .ok ()

namespace OwnedArena

variable {α : Type} (a : OwnedArena α)

def new : OwnedArena α := ⟨.new⟩

def len : Nat := a.arena.len

def insert (owner : RuntimeId) (value : α) :
    Except InsertError (Handle × OwnershipEpoch) × OwnedArena α :=
  match a.arena.insert ⟨owner, 0, value⟩ with
  | (.ok handle, arena) => (.ok (handle, 0), ⟨arena⟩)
  | (.error e, arena) => (.error e, ⟨arena⟩)

def state (handle : Handle) : Except OwnershipError (OwnedValue α) :=
  match a.arena.get handle with
  | some state => .ok state
  | none => .error .staleHandle

def metadata (handle : Handle) : Except OwnershipError OwnershipMetadata := do
  let state ← a.state handle
  pure ⟨state.owner, state.epoch⟩

def authorize (g : Grant) : Except OwnershipError (OwnedValue α) := do
  let state ← a.state g.handle
  assertOwnerAndEpoch state g.owner g.epoch
  pure state

def get (g : Grant) : Except OwnershipError α := do
  let state ← a.authorize g
  pure state.value

-- `get_mut` lends the value; the caller leaves another one in its place.
def getMut (g : Grant) (write : α → α) : Except OwnershipError Unit × OwnedArena α :=
  match a.authorize g with
  | .error e => (.error e, a)
  | .ok state => (.ok (), ⟨a.arena.update g.handle { state with value := write state.value }⟩)

def transfer (g : Grant) (newOwner : RuntimeId) :
    Except OwnershipError OwnershipEpoch × OwnedArena α :=
  match a.authorize g with
  | .error e => (.error e, a)
  | .ok state =>
    match state.epoch.next with
    | none => (.error .epochExhausted, a)
    | some nextEpoch =>
      (.ok nextEpoch,
        ⟨a.arena.update g.handle { state with owner := newOwner, epoch := nextEpoch }⟩)

def remove (g : Grant) : Except OwnershipError α × OwnedArena α :=
  match a.authorize g with
  | .error e => (.error e, a)
  | .ok _ =>
    match a.arena.remove g.handle with
    | (some state, arena) => (.ok state.value, ⟨arena⟩)
    | (none, arena) => (.error .staleHandle, ⟨arena⟩)

end OwnedArena

inductive OwnedStep {α : Type} : OwnedArena α → OwnedArena α → Prop where
  | insert {a : OwnedArena α} (owner : RuntimeId) (value : α) : OwnedStep a (a.insert owner value).2
  | write {a : OwnedArena α} (g : Grant) (write : α → α) : OwnedStep a (a.getMut g write).2
  | transfer {a : OwnedArena α} (g : Grant) (newOwner : RuntimeId) :
      OwnedStep a (a.transfer g newOwner).2
  | remove {a : OwnedArena α} (g : Grant) : OwnedStep a (a.remove g).2

abbrev OwnedRun {α : Type} : OwnedArena α → OwnedArena α → Prop := Relation.ReflTransGen OwnedStep

def OwnedReachable {α : Type} (a : OwnedArena α) : Prop := OwnedRun .new a

end Cobblestone.Runtime
