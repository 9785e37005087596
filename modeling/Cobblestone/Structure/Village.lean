import Cobblestone.Structure.Codec

namespace Cobblestone.Structure

open Lib World Cursor

inductive VillageStyle where
  | plains
  | desert
  | savanna
  | taiga
deriving DecidableEq, Repr

namespace VillageStyle

def toU8 : VillageStyle → UInt8
  | plains => 0
  | desert => 1
  | savanna => 2
  | taiga => 3

def decode : UInt8 → Option VillageStyle
  | 0 => some plains
  | 1 => some desert
  | 2 => some savanna
  | 3 => some taiga
  | _ => none

theorem decode_toU8 (style : VillageStyle) : decode style.toU8 = some style := by
  cases style <;> rfl

end VillageStyle

inductive VillagePieceKind where
  | start
  | simpleHouse
  | smallTemple
  | bookHouse
  | smallHut
  | pigHouse
  | doubleFarmland
  | farmland
  | smithy
  | twoRoomHouse
  | lightPost
  | straightRoad
deriving DecidableEq, Repr

namespace VillagePieceKind

def toU8 : VillagePieceKind → UInt8
  | start => 0
  | simpleHouse => 1
  | smallTemple => 2
  | bookHouse => 3
  | smallHut => 4
  | pigHouse => 5
  | doubleFarmland => 6
  | farmland => 7
  | smithy => 8
  | twoRoomHouse => 9
  | lightPost => 10
  | straightRoad => 11

def decode : UInt8 → Option VillagePieceKind
  | 0 => some start
  | 1 => some simpleHouse
  | 2 => some smallTemple
  | 3 => some bookHouse
  | 4 => some smallHut
  | 5 => some pigHouse
  | 6 => some doubleFarmland
  | 7 => some farmland
  | 8 => some smithy
  | 9 => some twoRoomHouse
  | 10 => some lightPost
  | 11 => some straightRoad
  | _ => none

theorem decode_toU8 (kind : VillagePieceKind) : decode kind.toU8 = some kind := by
  cases kind <;> rfl

end VillagePieceKind

inductive VillageCrop where
  | wheat
  | potato
  | beetroot
  | carrot
deriving DecidableEq, Repr

namespace VillageCrop

def code : VillageCrop → UInt8
  | wheat => 0
  | potato => 1
  | beetroot => 2
  | carrot => 3

def ofCode : UInt8 → Option VillageCrop
  | 0 => some wheat
  | 1 => some potato
  | 2 => some beetroot
  | 3 => some carrot
  | _ => none

theorem ofCode_code (crop : VillageCrop) : ofCode crop.code = some crop := by
  cases crop <;> rfl

end VillageCrop

inductive VillagePieceExtra where
  | none
  | simpleHouse (terrace : Bool)
  | smallHut (lowCeiling : Bool) (table : UInt8)
  | farmland (first second : VillageCrop)
  | doubleFarmland (first second third fourth : VillageCrop)
  | straightRoad (length : Int32)
deriving DecidableEq, Repr

structure VillagePiecePlan where
  kind : VillagePieceKind
  bounds : StructureBounds
  orientation : StructureOrientation
  genDepth : Int32
  extra : VillagePieceExtra
  heightPosition : Int32
  placedChest : Bool
deriving DecidableEq, Repr

structure VillagePlan where
  core : StructureStartCore
  style : VillageStyle
  abandoned : Bool
  pieces : List VillagePiecePlan
deriving DecidableEq, Repr

def VillagePieceExtra.encode : VillagePieceExtra → Bytes
  | none => [0]
  | simpleHouse terrace => [1] ++ [bit terrace]
  | smallHut lowCeiling table => [2] ++ ([bit lowCeiling] ++ [table])
  | farmland first second => [3] ++ ([first.code] ++ [second.code])
  | doubleFarmland first second third fourth =>
    [4] ++ ([first.code] ++ ([second.code] ++ ([third.code] ++ [fourth.code])))
  | straightRoad length => [5] ++ Word.toLeBytes length

def decodeCrop : Cursor VillageCrop := do
  let value ← word
  ofOption (VillageCrop.ofCode value)

-- The decoder does not ask which kind of piece the extra data belongs to.
def decodeVillageExtra : Cursor VillagePieceExtra := do
  let tag ← word (α := UInt8)
  match tag with
  | 0 => pure .none
  | 1 => do
    let terrace ← bool
    pure (.simpleHouse terrace)
  | 2 => do
    let lowCeiling ← bool
    let table ← word
    pure (.smallHut lowCeiling table)
  | 3 => do
    let first ← decodeCrop
    let second ← decodeCrop
    pure (.farmland first second)
  | 4 => do
    let first ← decodeCrop
    let second ← decodeCrop
    let third ← decodeCrop
    let fourth ← decodeCrop
    pure (.doubleFarmland first second third fourth)
  | 5 => do
    let length ← word
    pure (.straightRoad length)
  | _ => fail

namespace VillagePiecePlan

def encode (piece : VillagePiecePlan) : Bytes :=
  [piece.kind.toU8] ++ ([piece.orientation.toU8] ++ (Word.toLeBytes piece.genDepth ++
    (piece.bounds.encode ++ (Word.toLeBytes piece.heightPosition ++ ([bit piece.placedChest] ++
      piece.extra.encode)))))

def decode : Cursor VillagePiecePlan := do
  let tag ← word
  let kind ← ofOption (VillagePieceKind.decode tag)
  let orientation ← decodeOrientation
  let genDepth ← word
  let bounds ← decodeBounds
  let heightPosition ← word
  let placedChest ← bool
  let extra ← decodeVillageExtra
  pure ⟨kind, bounds, orientation, genDepth, extra, heightPosition, placedChest⟩

end VillagePiecePlan

namespace VillagePlan

def encodeSemantics (plan : VillagePlan) : Bytes :=
  plan.core.encodeCoreSemantics ++ ([plan.style.toU8] ++ ([bit plan.abandoned] ++
    encodeList VillagePiecePlan.encode plan.pieces))

def decodeSemantics : Cursor VillagePlan := do
  let core ← decodeCore
  let tag ← word
  let style ← ofOption (VillageStyle.decode tag)
  let abandoned ← bool
  let pieces ← decodeList 0 VillagePiecePlan.decode
  pure ⟨core, style, abandoned, pieces⟩

def restored (plan : VillagePlan) : VillagePlan := { plan with core := plan.core.restored }

end VillagePlan

-- "CVS1"
def villageMagic : Bytes := [67, 86, 83, 49]

namespace VillageStructureState

def encode (starts : List VillagePlan) : Bytes :=
  encodeState villageMagic VillagePlan.encodeSemantics starts

def decode (bytes : Bytes) : Option (List VillagePlan) :=
  decodeState villageMagic VillagePlan.decodeSemantics bytes

end VillageStructureState

section RoundTrip

theorem reads_crop (crop : VillageCrop) : Reads decodeCrop [crop.code] crop :=
  (reads_u8 crop.code).bind (k := fun value => ofOption (VillageCrop.ofCode value))
    (reads_ofOption crop.ofCode_code)

theorem extends_crop : Extends decodeCrop := .bind .word fun _ => .ofOption _

theorem reads_villageExtra (extra : VillagePieceExtra) :
    Reads decodeVillageExtra extra.encode extra := by
  cases extra with
  | none => exact (reads_u8 0).bind (Reads.pure _)
  | simpleHouse terrace => exact (reads_u8 1).bind ((reads_bool terrace).bind_pure _)
  | smallHut lowCeiling table =>
    refine (reads_u8 2).bind ?_
    refine (reads_bool lowCeiling).bind ?_
    exact (reads_u8 table).bind_pure _
  | farmland first second =>
    refine (reads_u8 3).bind ?_
    refine (reads_crop first).bind ?_
    exact (reads_crop second).bind_pure _
  | doubleFarmland first second third fourth =>
    refine (reads_u8 4).bind ?_
    refine (reads_crop first).bind ?_
    refine (reads_crop second).bind ?_
    refine (reads_crop third).bind ?_
    exact (reads_crop fourth).bind_pure _
  | straightRoad length => exact (reads_u8 5).bind ((reads_word length).bind_pure _)

theorem extends_villageExtra : Extends decodeVillageExtra := by
  refine .bind .word fun tag => ?_
  split
  · exact .pure _
  · exact .map .bool _
  · exact .bind .bool fun _ => .map .word _
  · exact .bind extends_crop fun _ => extends_crop.map _
  · exact .bind extends_crop fun _ => .bind extends_crop fun _ => .bind extends_crop fun _ =>
      extends_crop.map _
  · exact .map .word _
  · exact .fail

theorem reads_villagePiece (piece : VillagePiecePlan) :
    Reads VillagePiecePlan.decode piece.encode piece := by
  refine (reads_u8 piece.kind.toU8).bind ?_
  refine (reads_ofOption piece.kind.decode_toU8).bind_silent ?_
  refine (reads_orientation piece.orientation).bind ?_
  refine (reads_word piece.genDepth).bind ?_
  refine (reads_bounds piece.bounds).bind ?_
  refine (reads_word piece.heightPosition).bind ?_
  refine (reads_bool piece.placedChest).bind ?_
  exact (reads_villageExtra piece.extra).bind_pure _

theorem extends_villagePiece : Extends VillagePiecePlan.decode :=
  .bind .word fun _ => .bind (.ofOption _) fun _ => .bind extends_orientation fun _ =>
    .bind .word fun _ => .bind extends_bounds fun _ => .bind .word fun _ => .bind .bool fun _ =>
      extends_villageExtra.map _

theorem reads_villagePlan {plan : VillagePlan} (hcount : plan.pieces.length ≤ maxCount) :
    Reads VillagePlan.decodeSemantics plan.encodeSemantics plan.restored := by
  refine (reads_core plan.core).bind ?_
  refine (reads_u8 plan.style.toU8).bind ?_
  refine (reads_ofOption plan.style.decode_toU8).bind_silent ?_
  refine (reads_bool plan.abandoned).bind ?_
  have hpieces := reads_list (Nat.zero_le _) hcount fun piece _ => reads_villagePiece piece
  exact hpieces.bind_pure _

theorem extends_villagePlan : Extends VillagePlan.decodeSemantics :=
  .bind extends_core fun _ => .bind .word fun _ => .bind (.ofOption _) fun _ =>
    .bind .bool fun _ => (extends_list 0 extends_villagePiece).map _

theorem village_roundTrips {starts : List VillagePlan} (hcount : starts.length ≤ maxCount)
    (hpieces : ∀ plan ∈ starts, plan.pieces.length ≤ maxCount) :
    RoundTrips VillageStructureState.encode VillageStructureState.decode VillagePlan.restored
      starts :=
  roundTrips_of_reads rfl extends_villagePlan hcount fun plan hp =>
    reads_villagePlan (hpieces plan hp)

theorem yields_villagePlan {plan : VillagePlan} (hcount : plan.pieces.length < 4294967296) :
    Yields VillagePlan.decodeSemantics plan.encodeSemantics plan.restored := by
  refine (reads_core plan.core).yields.bind ?_
  refine (reads_u8 plan.style.toU8).yields.bind ?_
  refine (reads_ofOption plan.style.decode_toU8).yields.bind_silent ?_
  refine (reads_bool plan.abandoned).yields.bind ?_
  have hpieces := yields_list 0 hcount fun piece _ =>
    (reads_villagePiece piece).yields
  exact hpieces.bind_pure _

theorem village_reload {starts starts' : List VillagePlan}
    (h : ∀ plan ∈ starts, plan.pieces.length < 4294967296)
    (hdecode : VillageStructureState.decode (VillageStructureState.encode starts) =
      some starts') : starts' = starts.map VillagePlan.restored :=
  decodeState_of_encodeState rfl (fun plan hp => yields_villagePlan (h plan hp))
    (fun plan => encodeCore_append_ne_nil plan.core _) hdecode

end RoundTrip

end Cobblestone.Structure
