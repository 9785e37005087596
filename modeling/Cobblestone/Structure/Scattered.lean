import Cobblestone.Structure.Codec

namespace Cobblestone.Structure

open Lib World Cursor

inductive ScatteredKind where
  | desertPyramid
  | junglePyramid
  | swamplandHut
deriving DecidableEq, Repr

namespace ScatteredKind

def toU8 : ScatteredKind → UInt8
  | desertPyramid => 0
  | junglePyramid => 1
  | swamplandHut => 2

def decode : UInt8 → Option ScatteredKind
  | 0 => some desertPyramid
  | 1 => some junglePyramid
  | 2 => some swamplandHut
  | _ => none

theorem decode_toU8 (kind : ScatteredKind) : decode kind.toU8 = some kind := by
  cases kind <;> rfl

end ScatteredKind

structure ScatteredPieceState where
  kind : ScatteredKind
  heightPosition : Int32
  desertChests : Bool × Bool × Bool × Bool
  jungleMainChest : Bool
  jungleHiddenChest : Bool
  jungleTraps : Bool × Bool
  spawnedWitch : Bool
deriving DecidableEq, Repr

structure ScatteredPlan where
  core : StructureStartCore
  piece : Option ScatteredPieceState
deriving DecidableEq, Repr

namespace ScatteredPieceState

def flags (piece : ScatteredPieceState) : List Bool :=
  [piece.desertChests.1, piece.desertChests.2.1, piece.desertChests.2.2.1,
    piece.desertChests.2.2.2, piece.jungleMainChest, piece.jungleHiddenChest, piece.jungleTraps.1,
    piece.jungleTraps.2, piece.spawnedWitch]

def encode (piece : ScatteredPieceState) : Bytes :=
  [piece.kind.toU8] ++ (Word.toLeBytes piece.heightPosition ++
    piece.flags.flatMap fun flag => [bit flag])

def ofFlags (kind : ScatteredKind) (heightPosition : Int32) :
    List Bool → Option ScatteredPieceState
  | [a, b, c, d, main, hidden, left, right, witch] =>
    some ⟨kind, heightPosition, (a, b, c, d), main, hidden, (left, right), witch⟩
  | _ => none

def decode : Cursor ScatteredPieceState := do
  let tag ← word
  let kind ← ofOption (ScatteredKind.decode tag)
  let heightPosition ← word
  let flags ← Reader.times bool 9
  ofOption (ofFlags kind heightPosition flags)

end ScatteredPieceState

namespace ScatteredPlan

def encode (plan : ScatteredPlan) : Bytes :=
  plan.core.encodeCoreSemantics ++
    match plan.piece with
    | none => [0]
    | some piece => [1] ++ piece.encode

def decodePiece : Cursor (Option ScatteredPieceState) := do
  let tag ← word (α := UInt8)
  match tag with
  | 0 => pure none
  | 1 => do
    let piece ← ScatteredPieceState.decode
    pure (some piece)
  | _ => fail

def decode : Cursor ScatteredPlan := do
  let core ← decodeCore
  let piece ← decodePiece
  pure ⟨core, piece⟩

def restored (plan : ScatteredPlan) : ScatteredPlan := { plan with core := plan.core.restored }

end ScatteredPlan

-- "CST1"
def scatteredMagic : Bytes := [67, 83, 84, 49]

namespace ScatteredStructureState

def encode (starts : List ScatteredPlan) : Bytes :=
  encodeState scatteredMagic ScatteredPlan.encode starts

def decode (bytes : Bytes) : Option (List ScatteredPlan) :=
  decodeState scatteredMagic ScatteredPlan.decode bytes

end ScatteredStructureState

section RoundTrip

theorem reads_scatteredPiece (piece : ScatteredPieceState) :
    Reads ScatteredPieceState.decode piece.encode piece := by
  refine (reads_u8 piece.kind.toU8).bind ?_
  refine (reads_ofOption piece.kind.decode_toU8).bind_silent ?_
  refine (reads_word piece.heightPosition).bind ?_
  have hflags : Reads (Reader.times bool piece.flags.length)
      (piece.flags.flatMap fun flag => [bit flag]) piece.flags :=
    Reads.times fun flag _ => reads_bool flag
  have hpiece : Reads (ofOption (ScatteredPieceState.ofFlags piece.kind piece.heightPosition
      piece.flags)) [] piece := reads_ofOption rfl
  have h := hflags.bind (k := fun flags =>
    ofOption (ScatteredPieceState.ofFlags piece.kind piece.heightPosition flags)) hpiece
  rw [List.append_nil] at h
  exact h

theorem extends_scatteredPiece : Extends ScatteredPieceState.decode :=
  .bind .word fun _ => .bind (.ofOption _) fun _ => .bind .word fun _ =>
    .bind (Extends.bool.times 9) fun _ => .ofOption _

theorem reads_scatteredPlan (plan : ScatteredPlan) :
    Reads ScatteredPlan.decode plan.encode plan.restored := by
  obtain ⟨core, piece⟩ := plan
  refine (reads_core core).bind ?_
  have hpiece : Reads ScatteredPlan.decodePiece
      (match piece with
        | none => [0]
        | some piece => [1] ++ piece.encode) piece := by
    cases piece with
    | none => exact (reads_u8 0).bind (Reads.pure _)
    | some piece => exact (reads_u8 1).bind ((reads_scatteredPiece piece).bind_pure _)
  exact hpiece.bind_pure _

theorem extends_scatteredPlan : Extends ScatteredPlan.decode := by
  refine .bind extends_core fun core => .map (.bind .word fun tag => ?_) _
  split
  · exact .pure _
  · exact extends_scatteredPiece.map _
  · exact .fail

theorem scattered_roundTrips {starts : List ScatteredPlan} (hcount : starts.length ≤ maxCount) :
    RoundTrips ScatteredStructureState.encode ScatteredStructureState.decode ScatteredPlan.restored
      starts :=
  roundTrips_of_reads rfl extends_scatteredPlan hcount fun plan _ => reads_scatteredPlan plan

theorem scattered_reload {starts starts' : List ScatteredPlan}
    (hdecode : ScatteredStructureState.decode (ScatteredStructureState.encode starts) =
      some starts') : starts' = starts.map ScatteredPlan.restored :=
  decodeState_of_encodeState rfl (fun plan _ => (reads_scatteredPlan plan).yields)
    (fun plan => encodeCore_append_ne_nil plan.core _) hdecode

end RoundTrip

end Cobblestone.Structure
