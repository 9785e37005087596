import Cobblestone.Structure.Codec

namespace Cobblestone.Structure

open Lib World Cursor

inductive StrongholdPieceKind where
  | straight
  | prisonHall
  | leftTurn
  | rightTurn
  | roomCrossing
  | straightStairsDown
  | stairsDown
  | fiveCrossing
  | chestCorridor
  | library
  | portalRoom
  | fillerCorridor
deriving DecidableEq, Repr

namespace StrongholdPieceKind

def toU8 : StrongholdPieceKind → UInt8
  | straight => 0
  | prisonHall => 1
  | leftTurn => 2
  | rightTurn => 3
  | roomCrossing => 4
  | straightStairsDown => 5
  | stairsDown => 6
  | fiveCrossing => 7
  | chestCorridor => 8
  | library => 9
  | portalRoom => 10
  | fillerCorridor => 11

def decode : UInt8 → Option StrongholdPieceKind
  | 0 => some straight
  | 1 => some prisonHall
  | 2 => some leftTurn
  | 3 => some rightTurn
  | 4 => some roomCrossing
  | 5 => some straightStairsDown
  | 6 => some stairsDown
  | 7 => some fiveCrossing
  | 8 => some chestCorridor
  | 9 => some library
  | 10 => some portalRoom
  | 11 => some fillerCorridor
  | _ => none

theorem decode_toU8 (kind : StrongholdPieceKind) : decode kind.toU8 = some kind := by
  cases kind <;> rfl

end StrongholdPieceKind

inductive StrongholdDoor where
  | opening
  | woodDoor
  | grates
  | ironDoor
deriving DecidableEq, Repr

namespace StrongholdDoor

def toU8 : StrongholdDoor → UInt8
  | opening => 0
  | woodDoor => 1
  | grates => 2
  | ironDoor => 3

def decode : UInt8 → Option StrongholdDoor
  | 0 => some opening
  | 1 => some woodDoor
  | 2 => some grates
  | 3 => some ironDoor
  | _ => none

theorem decode_toU8 (door : StrongholdDoor) : decode door.toU8 = some door := by
  cases door <;> rfl

end StrongholdDoor

inductive StrongholdPieceExtra where
  | none
  | stairsDown (isSource : Bool)
  | chestCorridor (hasPlacedChest : Bool)
  | fillerCorridor (steps : Int32)
  | fiveCrossing (leftHigh leftLow rightHigh rightLow : Bool)
  | library (isTall : Bool)
  | portalRoom (hasPlacedMobSpawner : Bool)
  | roomCrossing (roomType : Int32)
  | straight (leftChild rightChild : Bool)
deriving DecidableEq, Repr

structure StrongholdPiecePlan where
  kind : StrongholdPieceKind
  bounds : StructureBounds
  orientation : StructureOrientation
  genDepth : Int32
  entryDoor : StrongholdDoor
  extra : StrongholdPieceExtra
deriving DecidableEq, Repr

structure StrongholdPlan where
  core : StructureStartCore
  pieces : List StrongholdPiecePlan
deriving DecidableEq, Repr

def StrongholdPieceExtra.encode : StrongholdPieceExtra → Bytes
  | none => [0]
  | stairsDown isSource => [1] ++ [bit isSource]
  | chestCorridor hasPlacedChest => [2] ++ [bit hasPlacedChest]
  | fillerCorridor steps => [3] ++ Word.toLeBytes steps
  | fiveCrossing leftHigh leftLow rightHigh rightLow =>
    [4] ++ ([bit leftHigh] ++ ([bit leftLow] ++ ([bit rightHigh] ++ [bit rightLow])))
  | library isTall => [5] ++ [bit isTall]
  | portalRoom hasPlacedMobSpawner => [6] ++ [bit hasPlacedMobSpawner]
  | roomCrossing roomType => [7] ++ Word.toLeBytes roomType
  | straight leftChild rightChild => [8] ++ ([bit leftChild] ++ [bit rightChild])

-- The kinds that carry nothing of their own.
def StrongholdPieceKind.isPlain : StrongholdPieceKind → Bool
  | prisonHall | leftTurn | rightTurn | straightStairsDown => true
  | _ => false

def decodeStrongholdExtra (kind : StrongholdPieceKind) : Cursor StrongholdPieceExtra := do
  let tag ← word (α := UInt8)
  match tag, kind with
  | 0, kind => if kind.isPlain then pure .none else fail
  | 1, .stairsDown => do
    let isSource ← bool
    pure (.stairsDown isSource)
  | 2, .chestCorridor => do
    let hasPlacedChest ← bool
    pure (.chestCorridor hasPlacedChest)
  | 3, .fillerCorridor => do
    let steps ← word
    pure (.fillerCorridor steps)
  | 4, .fiveCrossing => do
    let leftHigh ← bool
    let leftLow ← bool
    let rightHigh ← bool
    let rightLow ← bool
    pure (.fiveCrossing leftHigh leftLow rightHigh rightLow)
  | 5, .library => do
    let isTall ← bool
    pure (.library isTall)
  | 6, .portalRoom => do
    let hasPlacedMobSpawner ← bool
    pure (.portalRoom hasPlacedMobSpawner)
  | 7, .roomCrossing => do
    let roomType ← word
    pure (.roomCrossing roomType)
  | 8, .straight => do
    let leftChild ← bool
    let rightChild ← bool
    pure (.straight leftChild rightChild)
  | _, _ => fail

namespace StrongholdPiecePlan

def encode (piece : StrongholdPiecePlan) : Bytes :=
  [piece.kind.toU8] ++ ([piece.orientation.toU8] ++ ([piece.entryDoor.toU8] ++
    (Word.toLeBytes piece.genDepth ++ (piece.bounds.encode ++ piece.extra.encode))))

def decode : Cursor StrongholdPiecePlan := do
  let tag ← word
  let kind ← ofOption (StrongholdPieceKind.decode tag)
  let orientation ← decodeOrientation
  let door ← word
  let entryDoor ← ofOption (StrongholdDoor.decode door)
  let genDepth ← word
  let bounds ← decodeBounds
  let extra ← decodeStrongholdExtra kind
  pure ⟨kind, bounds, orientation, genDepth, entryDoor, extra⟩

-- The extra data of the piece's kind.
def Fits (piece : StrongholdPiecePlan) : Prop :=
  match piece.extra with
  | .none => piece.kind.isPlain = true
  | .stairsDown _ => piece.kind = .stairsDown
  | .chestCorridor _ => piece.kind = .chestCorridor
  | .fillerCorridor _ => piece.kind = .fillerCorridor
  | .fiveCrossing .. => piece.kind = .fiveCrossing
  | .library _ => piece.kind = .library
  | .portalRoom _ => piece.kind = .portalRoom
  | .roomCrossing _ => piece.kind = .roomCrossing
  | .straight .. => piece.kind = .straight

end StrongholdPiecePlan

namespace StrongholdPlan

def encode (plan : StrongholdPlan) : Bytes :=
  plan.core.encodeCoreSemantics ++ encodeList StrongholdPiecePlan.encode plan.pieces

-- A stronghold has at least one piece.
def decode : Cursor StrongholdPlan := do
  let core ← decodeCore
  let pieces ← decodeList 1 StrongholdPiecePlan.decode
  pure ⟨core, pieces⟩

structure Fits (plan : StrongholdPlan) : Prop where
  nonempty : 1 ≤ plan.pieces.length
  count : plan.pieces.length ≤ maxCount
  pieces : ∀ piece ∈ plan.pieces, piece.Fits

def restored (plan : StrongholdPlan) : StrongholdPlan := { plan with core := plan.core.restored }

end StrongholdPlan

-- "CSS1"
def strongholdMagic : Bytes := [67, 83, 83, 49]

namespace StrongholdStructureState

def encode (starts : List StrongholdPlan) : Bytes :=
  encodeState strongholdMagic StrongholdPlan.encode starts

def decode (bytes : Bytes) : Option (List StrongholdPlan) :=
  decodeState strongholdMagic StrongholdPlan.decode bytes

end StrongholdStructureState

section RoundTrip

theorem reads_strongholdExtra {piece : StrongholdPiecePlan} (h : piece.Fits) :
    Reads (decodeStrongholdExtra piece.kind) piece.extra.encode piece.extra := by
  obtain ⟨kind, bounds, orientation, genDepth, entryDoor, extra⟩ := piece
  cases extra with
  | none =>
    refine (reads_u8 0).bind ?_
    have hplain : kind.isPlain = true := h
    change Reads (if kind.isPlain then Pure.pure StrongholdPieceExtra.none else fail) [] _
    rw [if_pos hplain]
    exact Reads.pure _
  | stairsDown isSource =>
    cases (h : kind = _)
    exact (reads_u8 1).bind ((reads_bool isSource).bind_pure _)
  | chestCorridor hasPlacedChest =>
    cases (h : kind = _)
    exact (reads_u8 2).bind ((reads_bool hasPlacedChest).bind_pure _)
  | fillerCorridor steps =>
    cases (h : kind = _)
    exact (reads_u8 3).bind ((reads_word steps).bind_pure _)
  | fiveCrossing leftHigh leftLow rightHigh rightLow =>
    cases (h : kind = _)
    refine (reads_u8 4).bind ?_
    refine (reads_bool leftHigh).bind ?_
    refine (reads_bool leftLow).bind ?_
    refine (reads_bool rightHigh).bind ?_
    exact (reads_bool rightLow).bind_pure _
  | library isTall =>
    cases (h : kind = _)
    exact (reads_u8 5).bind ((reads_bool isTall).bind_pure _)
  | portalRoom hasPlacedMobSpawner =>
    cases (h : kind = _)
    exact (reads_u8 6).bind ((reads_bool hasPlacedMobSpawner).bind_pure _)
  | roomCrossing roomType =>
    cases (h : kind = _)
    exact (reads_u8 7).bind ((reads_word roomType).bind_pure _)
  | straight leftChild rightChild =>
    cases (h : kind = _)
    refine (reads_u8 8).bind ?_
    refine (reads_bool leftChild).bind ?_
    exact (reads_bool rightChild).bind_pure _

theorem extends_strongholdExtra (kind : StrongholdPieceKind) :
    Extends (decodeStrongholdExtra kind) := by
  refine .bind .word fun tag => ?_
  split
  · exact .ite (.pure _) .fail
  · exact .map .bool _
  · exact .map .bool _
  · exact .map .word _
  · exact .bind .bool fun _ => .bind .bool fun _ => .bind .bool fun _ => .map .bool _
  · exact .map .bool _
  · exact .map .bool _
  · exact .map .word _
  · exact .bind .bool fun _ => .map .bool _
  · exact .fail

theorem reads_strongholdPiece {piece : StrongholdPiecePlan} (h : piece.Fits) :
    Reads StrongholdPiecePlan.decode piece.encode piece := by
  refine (reads_u8 piece.kind.toU8).bind ?_
  refine (reads_ofOption piece.kind.decode_toU8).bind_silent ?_
  refine (reads_orientation piece.orientation).bind ?_
  refine (reads_u8 piece.entryDoor.toU8).bind ?_
  refine (reads_ofOption piece.entryDoor.decode_toU8).bind_silent ?_
  refine (reads_word piece.genDepth).bind ?_
  refine (reads_bounds piece.bounds).bind ?_
  exact (reads_strongholdExtra h).bind_pure _

theorem extends_strongholdPiece : Extends StrongholdPiecePlan.decode :=
  .bind .word fun _ => .bind (.ofOption _) fun _ => .bind extends_orientation fun _ =>
    .bind .word fun _ => .bind (.ofOption _) fun _ => .bind .word fun _ =>
      .bind extends_bounds fun _ => .map (extends_strongholdExtra _) _

theorem reads_strongholdPlan {plan : StrongholdPlan} (h : plan.Fits) :
    Reads StrongholdPlan.decode plan.encode plan.restored := by
  refine (reads_core plan.core).bind ?_
  have hpieces := reads_list h.nonempty h.count fun piece hp =>
    reads_strongholdPiece (h.pieces piece hp)
  exact hpieces.bind_pure _

theorem extends_strongholdPlan : Extends StrongholdPlan.decode :=
  .bind extends_core fun _ => (extends_list 1 extends_strongholdPiece).map _

theorem stronghold_roundTrips {starts : List StrongholdPlan} (hcount : starts.length ≤ maxCount)
    (hstarts : ∀ plan ∈ starts, plan.Fits) :
    RoundTrips StrongholdStructureState.encode StrongholdStructureState.decode
      StrongholdPlan.restored starts :=
  roundTrips_of_reads rfl extends_strongholdPlan hcount fun plan hp =>
    reads_strongholdPlan (hstarts plan hp)

theorem yields_strongholdExtra (kind : StrongholdPieceKind) (extra : StrongholdPieceExtra) :
    Yields (decodeStrongholdExtra kind) extra.encode extra := by
  cases extra with
  | none =>
    change Yields _ ([0] ++ []) _
    refine (reads_u8 0).yields.bind ?_
    change Yields (if kind.isPlain then Pure.pure StrongholdPieceExtra.none else fail) [] _
    split
    · exact (Reads.pure _).yields
    · exact .fail
  | stairsDown isSource =>
    refine (reads_u8 1).yields.bind ?_
    cases kind with
    | stairsDown => exact (reads_bool isSource).yields.bind_pure _
    | _ => exact .fail
  | chestCorridor hasPlacedChest =>
    refine (reads_u8 2).yields.bind ?_
    cases kind with
    | chestCorridor => exact (reads_bool hasPlacedChest).yields.bind_pure _
    | _ => exact .fail
  | fillerCorridor steps =>
    refine (reads_u8 3).yields.bind ?_
    cases kind with
    | fillerCorridor => exact (reads_word steps).yields.bind_pure _
    | _ => exact .fail
  | fiveCrossing leftHigh leftLow rightHigh rightLow =>
    refine (reads_u8 4).yields.bind ?_
    cases kind with
    | fiveCrossing =>
      refine (reads_bool leftHigh).yields.bind ?_
      refine (reads_bool leftLow).yields.bind ?_
      refine (reads_bool rightHigh).yields.bind ?_
      exact (reads_bool rightLow).yields.bind_pure _
    | _ => exact .fail
  | library isTall =>
    refine (reads_u8 5).yields.bind ?_
    cases kind with
    | library => exact (reads_bool isTall).yields.bind_pure _
    | _ => exact .fail
  | portalRoom hasPlacedMobSpawner =>
    refine (reads_u8 6).yields.bind ?_
    cases kind with
    | portalRoom => exact (reads_bool hasPlacedMobSpawner).yields.bind_pure _
    | _ => exact .fail
  | roomCrossing roomType =>
    refine (reads_u8 7).yields.bind ?_
    cases kind with
    | roomCrossing => exact (reads_word roomType).yields.bind_pure _
    | _ => exact .fail
  | straight leftChild rightChild =>
    refine (reads_u8 8).yields.bind ?_
    cases kind with
    | straight =>
      refine (reads_bool leftChild).yields.bind ?_
      exact (reads_bool rightChild).yields.bind_pure _
    | _ => exact .fail

theorem yields_strongholdPiece (piece : StrongholdPiecePlan) :
    Yields StrongholdPiecePlan.decode piece.encode piece := by
  refine (reads_u8 piece.kind.toU8).yields.bind ?_
  refine (reads_ofOption piece.kind.decode_toU8).yields.bind_silent ?_
  refine (reads_orientation piece.orientation).yields.bind ?_
  refine (reads_u8 piece.entryDoor.toU8).yields.bind ?_
  refine (reads_ofOption piece.entryDoor.decode_toU8).yields.bind_silent ?_
  refine (reads_word piece.genDepth).yields.bind ?_
  refine (reads_bounds piece.bounds).yields.bind ?_
  exact (yields_strongholdExtra piece.kind piece.extra).bind_pure _

theorem yields_strongholdPlan {plan : StrongholdPlan} (hcount : plan.pieces.length < 4294967296) :
    Yields StrongholdPlan.decode plan.encode plan.restored := by
  refine (reads_core plan.core).yields.bind ?_
  have hpieces := yields_list 1 hcount fun piece _ => yields_strongholdPiece piece
  exact hpieces.bind_pure _

theorem stronghold_reload {starts starts' : List StrongholdPlan}
    (h : ∀ plan ∈ starts, plan.pieces.length < 4294967296)
    (hdecode : StrongholdStructureState.decode (StrongholdStructureState.encode starts) =
      some starts') : starts' = starts.map StrongholdPlan.restored :=
  decodeState_of_encodeState rfl (fun plan hp => yields_strongholdPlan (h plan hp))
    (fun plan => encodeCore_append_ne_nil plan.core _) hdecode

end RoundTrip

end Cobblestone.Structure
