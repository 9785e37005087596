import Cobblestone.Structure.Codec

namespace Cobblestone.Structure

open Lib World Cursor

inductive MineshaftPieceKind where
  | room
  | corridor
  | crossing
  | stairs
deriving DecidableEq, Repr

namespace MineshaftPieceKind

def toU8 : MineshaftPieceKind → UInt8
  | room => 0
  | corridor => 1
  | crossing => 2
  | stairs => 3

def decode : UInt8 → Option MineshaftPieceKind
  | 0 => some room
  | 1 => some corridor
  | 2 => some crossing
  | 3 => some stairs
  | _ => none

theorem decode_toU8 (kind : MineshaftPieceKind) : decode kind.toU8 = some kind := by
  cases kind <;> rfl

end MineshaftPieceKind

inductive MineshaftPieceExtra where
  | room (entrances : List StructureBounds)
  | corridor (hasRails spiderCorridor hasPlacedSpider : Bool) (numSections : Int32)
  | crossing (direction : StructureOrientation) (twoFloored : Bool)
  | stairs
deriving DecidableEq, Repr

structure MineshaftPiecePlan where
  kind : MineshaftPieceKind
  bounds : StructureBounds
  orientation : StructureOrientation
  genDepth : Int32
  extra : MineshaftPieceExtra
deriving DecidableEq, Repr

structure MineshaftPlan where
  core : StructureStartCore
  surface : Bool
  pieces : List MineshaftPiecePlan
deriving DecidableEq, Repr

def MineshaftPieceExtra.encode : MineshaftPieceExtra → Bytes
  | room entrances => [0] ++ encodeList StructureBounds.encode entrances
  | corridor hasRails spiderCorridor hasPlacedSpider numSections =>
    [1] ++ ([bit hasRails] ++ ([bit spiderCorridor] ++ ([bit hasPlacedSpider] ++
      Word.toLeBytes numSections)))
  | crossing direction twoFloored => [2] ++ ([direction.toU8] ++ [bit twoFloored])
  | stairs => [3]

def decodeMineshaftExtra (kind : MineshaftPieceKind) : Cursor MineshaftPieceExtra := do
  let tag ← word (α := UInt8)
  match tag, kind with
  | 0, .room => do
    let entrances ← decodeList 0 decodeBounds
    pure (.room entrances)
  | 1, .corridor => do
    let hasRails ← bool
    let spiderCorridor ← bool
    let hasPlacedSpider ← bool
    let numSections ← word
    pure (.corridor hasRails spiderCorridor hasPlacedSpider numSections)
  | 2, .crossing => do
    let direction ← decodeOrientation
    let twoFloored ← bool
    pure (.crossing direction twoFloored)
  | 3, .stairs => pure .stairs
  | _, _ => fail

namespace MineshaftPiecePlan

def encode (piece : MineshaftPiecePlan) : Bytes :=
  [piece.kind.toU8] ++ ([piece.orientation.toU8] ++ (Word.toLeBytes piece.genDepth ++
    (piece.bounds.encode ++ piece.extra.encode)))

def decode : Cursor MineshaftPiecePlan := do
  let tag ← word
  let kind ← ofOption (MineshaftPieceKind.decode tag)
  let orientation ← decodeOrientation
  let genDepth ← word
  let bounds ← decodeBounds
  let extra ← decodeMineshaftExtra kind
  pure ⟨kind, bounds, orientation, genDepth, extra⟩

-- The extra data of the piece's kind, within the bound of the decoder.
def Fits (piece : MineshaftPiecePlan) : Prop :=
  match piece.kind, piece.extra with
  | .room, .room entrances => entrances.length ≤ maxCount
  | .corridor, .corridor .. => True
  | .crossing, .crossing .. => True
  | .stairs, .stairs => True
  | _, _ => False

end MineshaftPiecePlan

namespace MineshaftPlan

def encode (plan : MineshaftPlan) : Bytes :=
  plan.core.encodeCoreSemantics ++ ([bit plan.surface] ++
    encodeList MineshaftPiecePlan.encode plan.pieces)

def decode : Cursor MineshaftPlan := do
  let core ← decodeCore
  let surface ← bool
  let pieces ← decodeList 0 MineshaftPiecePlan.decode
  pure ⟨core, surface, pieces⟩

structure Fits (plan : MineshaftPlan) : Prop where
  count : plan.pieces.length ≤ maxCount
  pieces : ∀ piece ∈ plan.pieces, piece.Fits

def restored (plan : MineshaftPlan) : MineshaftPlan := { plan with core := plan.core.restored }

end MineshaftPlan

-- "CMS1"
def mineshaftMagic : Bytes := [67, 77, 83, 49]

namespace MineshaftStructureState

def encode (starts : List MineshaftPlan) : Bytes :=
  encodeState mineshaftMagic MineshaftPlan.encode starts

def decode (bytes : Bytes) : Option (List MineshaftPlan) :=
  decodeState mineshaftMagic MineshaftPlan.decode bytes

end MineshaftStructureState

section RoundTrip

theorem reads_mineshaftExtra {piece : MineshaftPiecePlan} (h : piece.Fits) :
    Reads (decodeMineshaftExtra piece.kind) piece.extra.encode piece.extra := by
  obtain ⟨kind, bounds, orientation, genDepth, extra⟩ := piece
  cases extra with
  | room entrances =>
    cases kind with
    | room =>
      refine (reads_u8 0).bind ?_
      refine Reads.bind_pure (reads_list (Nat.zero_le _) h fun b _ => reads_bounds b) _
    | corridor | crossing | stairs => exact h.elim
  | corridor hasRails spiderCorridor hasPlacedSpider numSections =>
    cases kind with
    | corridor =>
      refine (reads_u8 1).bind ?_
      refine (reads_bool hasRails).bind ?_
      refine (reads_bool spiderCorridor).bind ?_
      refine (reads_bool hasPlacedSpider).bind ?_
      exact (reads_word numSections).bind_pure _
    | room | crossing | stairs => exact h.elim
  | crossing direction twoFloored =>
    cases kind with
    | crossing =>
      refine (reads_u8 2).bind ?_
      refine (reads_orientation direction).bind ?_
      exact (reads_bool twoFloored).bind_pure _
    | room | corridor | stairs => exact h.elim
  | stairs =>
    cases kind with
    | stairs => exact (reads_u8 3).bind (Reads.pure _)
    | room | corridor | crossing => exact h.elim

theorem extends_mineshaftExtra (kind : MineshaftPieceKind) : Extends (decodeMineshaftExtra kind) := by
  refine .bind .word fun tag => ?_
  split
  · exact (extends_list 0 extends_bounds).map _
  · exact .bind .bool fun _ => .bind .bool fun _ => .bind .bool fun _ => .map .word _
  · exact .bind extends_orientation fun _ => .map .bool _
  · exact .pure _
  · exact .fail

theorem reads_mineshaftPiece {piece : MineshaftPiecePlan} (h : piece.Fits) :
    Reads MineshaftPiecePlan.decode piece.encode piece := by
  refine (reads_u8 piece.kind.toU8).bind ?_
  refine (reads_ofOption piece.kind.decode_toU8).bind_silent ?_
  refine (reads_orientation piece.orientation).bind ?_
  refine (reads_word piece.genDepth).bind ?_
  refine (reads_bounds piece.bounds).bind ?_
  exact (reads_mineshaftExtra h).bind_pure _

theorem extends_mineshaftPiece : Extends MineshaftPiecePlan.decode :=
  .bind .word fun _ => .bind (.ofOption _) fun _ => .bind extends_orientation fun _ =>
    .bind .word fun _ => .bind extends_bounds fun _ => .map (extends_mineshaftExtra _) _

theorem reads_mineshaftPlan {plan : MineshaftPlan} (h : plan.Fits) :
    Reads MineshaftPlan.decode plan.encode plan.restored := by
  refine (reads_core plan.core).bind ?_
  refine (reads_bool plan.surface).bind ?_
  have hpieces := reads_list (Nat.zero_le _) h.count fun piece hp =>
    reads_mineshaftPiece (h.pieces piece hp)
  exact hpieces.bind_pure _

theorem extends_mineshaftPlan : Extends MineshaftPlan.decode :=
  .bind extends_core fun _ => .bind .bool fun _ => (extends_list 0 extends_mineshaftPiece).map _

theorem mineshaft_roundTrips {starts : List MineshaftPlan} (hcount : starts.length ≤ maxCount)
    (hstarts : ∀ plan ∈ starts, plan.Fits) :
    RoundTrips MineshaftStructureState.encode MineshaftStructureState.decode MineshaftPlan.restored
      starts :=
  roundTrips_of_reads rfl extends_mineshaftPlan hcount fun plan hp =>
    reads_mineshaftPlan (hstarts plan hp)

-- The counts that the encoder writes as words are the counts of the lists.
def MineshaftPieceExtra.Counted : MineshaftPieceExtra → Prop
  | room entrances => entrances.length < 4294967296
  | _ => True

structure MineshaftPlan.Counted (plan : MineshaftPlan) : Prop where
  count : plan.pieces.length < 4294967296
  pieces : ∀ piece ∈ plan.pieces, piece.extra.Counted

theorem yields_mineshaftExtra (kind : MineshaftPieceKind) {extra : MineshaftPieceExtra}
    (h : extra.Counted) : Yields (decodeMineshaftExtra kind) extra.encode extra := by
  cases extra with
  | room entrances =>
    refine (reads_u8 0).yields.bind ?_
    cases kind with
    | room => exact (yields_list 0 h fun b _ => (reads_bounds b).yields).bind_pure _
    | corridor | crossing | stairs => exact .fail
  | corridor hasRails spiderCorridor hasPlacedSpider numSections =>
    refine (reads_u8 1).yields.bind ?_
    cases kind with
    | corridor =>
      refine (reads_bool hasRails).yields.bind ?_
      refine (reads_bool spiderCorridor).yields.bind ?_
      refine (reads_bool hasPlacedSpider).yields.bind ?_
      exact (reads_word numSections).yields.bind_pure _
    | room | crossing | stairs => exact .fail
  | crossing direction twoFloored =>
    refine (reads_u8 2).yields.bind ?_
    cases kind with
    | crossing =>
      refine (reads_orientation direction).yields.bind ?_
      exact (reads_bool twoFloored).yields.bind_pure _
    | room | corridor | stairs => exact .fail
  | stairs =>
    change Yields _ ([3] ++ []) _
    refine (reads_u8 3).yields.bind ?_
    cases kind with
    | stairs => exact (Reads.pure _).yields
    | room | corridor | crossing => exact .fail

theorem yields_mineshaftPiece {piece : MineshaftPiecePlan} (h : piece.extra.Counted) :
    Yields MineshaftPiecePlan.decode piece.encode piece := by
  refine (reads_u8 piece.kind.toU8).yields.bind ?_
  refine (reads_ofOption piece.kind.decode_toU8).yields.bind_silent ?_
  refine (reads_orientation piece.orientation).yields.bind ?_
  refine (reads_word piece.genDepth).yields.bind ?_
  refine (reads_bounds piece.bounds).yields.bind ?_
  exact (yields_mineshaftExtra piece.kind h).bind_pure _

theorem yields_mineshaftPlan {plan : MineshaftPlan} (h : plan.Counted) :
    Yields MineshaftPlan.decode plan.encode plan.restored := by
  refine (reads_core plan.core).yields.bind ?_
  refine (reads_bool plan.surface).yields.bind ?_
  have hpieces := yields_list 0 h.count fun piece hp =>
    yields_mineshaftPiece (h.pieces piece hp)
  exact hpieces.bind_pure _

theorem mineshaft_reload {starts starts' : List MineshaftPlan} (h : ∀ plan ∈ starts, plan.Counted)
    (hdecode : MineshaftStructureState.decode (MineshaftStructureState.encode starts) =
      some starts') : starts' = starts.map MineshaftPlan.restored :=
  decodeState_of_encodeState rfl (fun plan hp => yields_mineshaftPlan (h plan hp))
    (fun plan => encodeCore_append_ne_nil plan.core _) hdecode

end RoundTrip

end Cobblestone.Structure
