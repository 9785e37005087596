import Mathlib.Tactic

namespace Cobblestone.Light

inductive BlockType where
  | air | stone | grass | dirt | cobblestone | planks | sapling | bedrock | flowingWater | water
  | flowingLava | lava | sand | gravel | goldOre | ironOre | coalOre | log | leaves | spongeDry
  | glass | lapisOre | lapisBlock | dispenser | sandstone | noteBlock | bed | goldenRail
  | detectorRail | stickyPiston | web | tallGrass | deadBush | piston | pistonArmCollision | wool
  | yellowFlower | redFlower | brownMushroom | redMushroom | goldBlock | ironBlock
  | doubleStoneSlab | stoneSlab | brickBlock | tnt | bookshelf | mossyCobblestone | obsidian
  | torch | fire | mobSpawner | oakStairs | chest | redstoneWire | diamondOre | diamondBlock
  | craftingTable | wheat | farmland | furnace | litFurnace | standingSign | woodenDoor | ladder
  | rail | stoneStairs | wallSign | lever | stonePressurePlate | ironDoor | woodenPressurePlate
  | redstoneOre | litRedstoneOre | unlitRedstoneTorch | redstoneTorch | stoneButton | snowLayer
  | ice | snow | cactus | clay | reeds | fence | pumpkin | netherrack | soulSand | glowstone
  | portal | litPumpkin | cake | unpoweredRepeater | poweredRepeater | invisibleBedrock | trapdoor
  | monsterEgg | stoneBrick | brownMushroomBlock | redMushroomBlock | ironBars | glassPane
  | melonBlock | pumpkinStem | melonStem | vine | fenceGate | brickStairs | stoneBrickStairs
  | mycelium | waterLily | netherBrick | netherBrickFence | netherBrickStairs | netherWart
  | enchantingTable | brewingStand | cauldron | endPortalFrame | endStone | redstoneLamp
  | litRedstoneLamp | dropper | activatorRail | cocoa | sandstoneStairs | emeraldOre
  | tripwireHook | tripWire | emeraldBlock | spruceStairs | birchStairs | jungleStairs
  | cobblestoneWall | flowerPot | carrots | potatoes | woodenButton | skull | anvil | trappedChest
  | lightWeightedPressurePlate | heavyWeightedPressurePlate | unpoweredComparator
  | poweredComparator | daylightDetector | redstoneBlock | quartzOre | hopper | quartzBlock
  | quartzStairs | doubleWoodenSlab | woodenSlab | stainedHardenedClay | leaves2 | log2
  | acaciaStairs | darkOakStairs | slime | ironTrapdoor | hayBlock | carpet | hardenedClay
  | coalBlock | packedIce | doublePlant | daylightDetectorInverted | redSandstone
  | redSandstoneStairs | doubleStoneSlab2 | stoneSlab2 | spruceFenceGate | birchFenceGate
  | jungleFenceGate | darkOakFenceGate | acaciaFenceGate | spruceDoor | birchDoor | jungleDoor
  | acaciaDoor | darkOakDoor | grassPath | frame | podzol | beetroot | stonecutter
  | glowingObsidian | netherReactor | infoUpdate | infoUpdate2 | movingBlock | reserved6
deriving DecidableEq

def BlockType.cases : List (Nat × BlockType) :=
  [(0, .air), (1, .stone), (2, .grass), (3, .dirt), (4, .cobblestone), (5, .planks), (6, .sapling),
    (7, .bedrock), (8, .flowingWater), (9, .water), (10, .flowingLava), (11, .lava), (12, .sand),
    (13, .gravel), (14, .goldOre), (15, .ironOre), (16, .coalOre), (17, .log), (18, .leaves),
    (19, .spongeDry), (20, .glass), (21, .lapisOre), (22, .lapisBlock), (23, .dispenser),
    (24, .sandstone), (25, .noteBlock), (26, .bed), (27, .goldenRail), (28, .detectorRail),
    (29, .stickyPiston), (30, .web), (31, .tallGrass), (32, .deadBush), (33, .piston),
    (34, .pistonArmCollision), (35, .wool), (37, .yellowFlower), (38, .redFlower),
    (39, .brownMushroom), (40, .redMushroom), (41, .goldBlock), (42, .ironBlock),
    (43, .doubleStoneSlab), (44, .stoneSlab), (45, .brickBlock), (46, .tnt), (47, .bookshelf),
    (48, .mossyCobblestone), (49, .obsidian), (50, .torch), (51, .fire), (52, .mobSpawner),
    (53, .oakStairs), (54, .chest), (55, .redstoneWire), (56, .diamondOre), (57, .diamondBlock),
    (58, .craftingTable), (59, .wheat), (60, .farmland), (61, .furnace), (62, .litFurnace),
    (63, .standingSign), (64, .woodenDoor), (65, .ladder), (66, .rail), (67, .stoneStairs),
    (68, .wallSign), (69, .lever), (70, .stonePressurePlate), (71, .ironDoor),
    (72, .woodenPressurePlate), (73, .redstoneOre), (74, .litRedstoneOre),
    (75, .unlitRedstoneTorch), (76, .redstoneTorch), (77, .stoneButton), (78, .snowLayer),
    (79, .ice), (80, .snow), (81, .cactus), (82, .clay), (83, .reeds), (85, .fence),
    (86, .pumpkin), (87, .netherrack), (88, .soulSand), (89, .glowstone), (90, .portal),
    (91, .litPumpkin), (92, .cake), (93, .unpoweredRepeater), (94, .poweredRepeater),
    (95, .invisibleBedrock), (96, .trapdoor), (97, .monsterEgg), (98, .stoneBrick),
    (99, .brownMushroomBlock), (100, .redMushroomBlock), (101, .ironBars), (102, .glassPane),
    (103, .melonBlock), (104, .pumpkinStem), (105, .melonStem), (106, .vine), (107, .fenceGate),
    (108, .brickStairs), (109, .stoneBrickStairs), (110, .mycelium), (111, .waterLily),
    (112, .netherBrick), (113, .netherBrickFence), (114, .netherBrickStairs), (115, .netherWart),
    (116, .enchantingTable), (117, .brewingStand), (118, .cauldron), (120, .endPortalFrame),
    (121, .endStone), (123, .redstoneLamp), (124, .litRedstoneLamp), (125, .dropper),
    (126, .activatorRail), (127, .cocoa), (128, .sandstoneStairs), (129, .emeraldOre),
    (131, .tripwireHook), (132, .tripWire), (133, .emeraldBlock), (134, .spruceStairs),
    (135, .birchStairs), (136, .jungleStairs), (139, .cobblestoneWall), (140, .flowerPot),
    (141, .carrots), (142, .potatoes), (143, .woodenButton), (144, .skull), (145, .anvil),
    (146, .trappedChest), (147, .lightWeightedPressurePlate), (148, .heavyWeightedPressurePlate),
    (149, .unpoweredComparator), (150, .poweredComparator), (151, .daylightDetector),
    (152, .redstoneBlock), (153, .quartzOre), (154, .hopper), (155, .quartzBlock),
    (156, .quartzStairs), (157, .doubleWoodenSlab), (158, .woodenSlab),
    (159, .stainedHardenedClay), (161, .leaves2), (162, .log2), (163, .acaciaStairs),
    (164, .darkOakStairs), (165, .slime), (167, .ironTrapdoor), (170, .hayBlock), (171, .carpet),
    (172, .hardenedClay), (173, .coalBlock), (174, .packedIce), (175, .doublePlant),
    (178, .daylightDetectorInverted), (179, .redSandstone), (180, .redSandstoneStairs),
    (181, .doubleStoneSlab2), (182, .stoneSlab2), (183, .spruceFenceGate), (184, .birchFenceGate),
    (185, .jungleFenceGate), (186, .darkOakFenceGate), (187, .acaciaFenceGate), (193, .spruceDoor),
    (194, .birchDoor), (195, .jungleDoor), (196, .acaciaDoor), (197, .darkOakDoor),
    (198, .grassPath), (199, .frame), (243, .podzol), (244, .beetroot), (245, .stonecutter),
    (246, .glowingObsidian), (247, .netherReactor), (248, .infoUpdate), (249, .infoUpdate2),
    (250, .movingBlock), (255, .reserved6)]

def BlockType.tryFrom (value : Nat) : Option BlockType :=
  (cases.find? fun entry => decide (entry.1 = value)).map Prod.snd

abbrev minLightLevel : Nat := 0
abbrev maxLightLevel : Nat := 15

structure BlockLightProperties where
  lightBlock : Nat
  lightEmission : Nat
  lightBlock_le : lightBlock ≤ maxLightLevel
  lightEmission_le : lightEmission ≤ maxLightLevel

def BlockLightProperties.propagationAttenuation (properties : BlockLightProperties) : Nat :=
  if properties.lightBlock = 0 then 1 else properties.lightBlock

namespace BlockTypeMetadata

def lightBlock : BlockType → Nat
  | .stone | .grass | .dirt | .cobblestone | .planks | .bedrock | .sand | .gravel | .goldOre
  | .ironOre | .coalOre | .log | .spongeDry | .lapisOre | .lapisBlock | .dispenser | .sandstone
  | .noteBlock | .stickyPiston | .piston | .pistonArmCollision | .wool | .goldBlock | .ironBlock
  | .doubleStoneSlab | .brickBlock | .tnt | .bookshelf | .mossyCobblestone | .obsidian
  | .mobSpawner | .diamondOre | .diamondBlock | .craftingTable | .furnace | .litFurnace
  | .redstoneOre | .litRedstoneOre | .snow | .clay | .pumpkin | .netherrack | .soulSand
  | .glowstone | .litPumpkin | .monsterEgg | .stoneBrick | .brownMushroomBlock | .redMushroomBlock
  | .melonBlock | .mycelium | .netherBrick | .endStone | .redstoneLamp | .litRedstoneLamp
  | .dropper | .emeraldOre | .emeraldBlock | .redstoneBlock | .quartzOre | .quartzBlock
  | .doubleWoodenSlab | .stainedHardenedClay | .log2 | .slime | .hayBlock | .hardenedClay
  | .coalBlock | .packedIce | .redSandstone | .doubleStoneSlab2 | .podzol | .stonecutter
  | .glowingObsidian | .netherReactor | .infoUpdate | .infoUpdate2 | .reserved6 => 15
  | _ => 0

def lightEmission : BlockType → Nat
  | .flowingLava | .lava | .fire | .glowstone | .litPumpkin | .litRedstoneLamp => 15
  | .torch => 14
  | .litFurnace | .glowingObsidian => 13
  | .portal => 11
  | .litRedstoneOre => 9
  | .redstoneTorch | .poweredRepeater | .poweredComparator => 7
  | .brownMushroom => 1
  | _ => 0

theorem lightBlock_cases (type : BlockType) : lightBlock type = 0 ∨ lightBlock type = 15 := by
  cases type <;> first | exact .inl rfl | exact .inr rfl

theorem lightEmission_le (type : BlockType) : lightEmission type ≤ maxLightLevel := by
  unfold lightEmission
  split <;> decide

def lightProperties (type : BlockType) : BlockLightProperties where
  lightBlock := lightBlock type
  lightEmission := lightEmission type
  lightBlock_le := by
    rcases lightBlock_cases type with h | h
    · rw [h]
      decide
    · rw [h]
  lightEmission_le := lightEmission_le type

end BlockTypeMetadata

abbrev maxBlockStateId : Nat := 0x0fff

def propertiesForStateId (stateId : Nat) : Option BlockLightProperties :=
  if maxBlockStateId < stateId then none
  else (BlockType.tryFrom (stateId >>> 4)).map BlockTypeMetadata.lightProperties

theorem propagationAttenuation_cases {stateId : Nat} {properties : BlockLightProperties}
    (h : propertiesForStateId stateId = some properties) :
    properties.propagationAttenuation = 1 ∨ properties.propagationAttenuation = maxLightLevel := by
  unfold propertiesForStateId at h
  split_ifs at h
  obtain ⟨type, -, rfl⟩ := Option.map_eq_some_iff.mp h
  rcases BlockTypeMetadata.lightBlock_cases type with hb | hb
  · exact .inl (if_pos hb)
  · refine .inr ((if_neg ?_).trans hb)
    exact fun hzero => by cases hb.symm.trans hzero

theorem propagationAttenuation_pos (properties : BlockLightProperties) :
    0 < properties.propagationAttenuation := by
  rw [BlockLightProperties.propagationAttenuation]
  split_ifs <;> omega

end Cobblestone.Light
