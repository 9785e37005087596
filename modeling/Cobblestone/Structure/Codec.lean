import Cobblestone.Structure.Core

namespace Cobblestone.Structure

open Lib World

def maxCount : Nat := 4096

-- The four families write their starts alike: a magic, the count and the plans.
section State

variable {α : Type}

def encodeState (magic : Bytes) (encodePlan : α → Bytes) (starts : List α) : Bytes :=
  magic ++ (Word.toLeBytes (UInt32.ofNat starts.length) ++ starts.flatMap encodePlan)

def decodeState (magic : Bytes) (decodePlan : Cursor α) (bytes : Bytes) : Option (List α) :=
  if bytes.length < 8 || bytes.take 4 != magic then none
  else
    let count : UInt32 := Word.ofLeBytes ((bytes.drop 4).take 4)
    if count.toNat > maxCount then none
    else Cursor.finish (Reader.times decodePlan count.toNat) (bytes.drop 8)

variable {magic : Bytes} {decodePlan : Cursor α} {encodePlan : α → Bytes}

theorem decodeState_eq_some {bytes : Bytes} {starts : List α}
    (h : decodeState magic decodePlan bytes = some starts) :
    ∃ header body, bytes = header ++ body ∧ header.length = 8 ∧ header.take 4 = magic ∧
      ∃ count : UInt32, count = Word.ofLeBytes (header.drop 4) ∧ count.toNat ≤ maxCount ∧
        Cursor.finish (Reader.times decodePlan count.toNat) body = some starts := by
  rw [decodeState] at h
  split at h
  · cases h
  · rename_i hheader
    rw [Bool.or_eq_true, not_or, decide_eq_true_eq, Nat.not_lt, bne_iff_ne, not_not] at hheader
    dsimp only at h
    split at h
    · cases h
    · rename_i hcount
      have hlength : (bytes.take 8).length = 8 := List.length_take_of_le hheader.1
      have hdrop : (bytes.take 8).drop 4 = (bytes.drop 4).take 4 := by rw [List.drop_take]
      have htake : (bytes.take 8).take 4 = bytes.take 4 := by simp [List.take_take]
      refine ⟨bytes.take 8, bytes.drop 8, (List.take_append_drop 8 bytes).symm, hlength,
        htake.trans hheader.2, _, rfl, ?_, ?_⟩
      · rw [hdrop]
        exact Nat.le_of_not_gt hcount
      · rw [hdrop]
        exact h

theorem decodeState_append {header body : Bytes} (hlength : header.length = 8)
    (hmagic : header.take 4 = magic)
    (hcount : (Word.ofLeBytes (header.drop 4) : UInt32).toNat ≤ maxCount) :
    decodeState magic decodePlan (header ++ body) = Cursor.finish (Reader.times decodePlan
      (Word.ofLeBytes (header.drop 4) : UInt32).toNat) body := by
  have htake : (header ++ body).take 4 = magic := by
    rw [List.take_append_of_le_length (by omega), hmagic]
  have hdrop : ((header ++ body).drop 4).take 4 = header.drop 4 := by
    rw [List.drop_append_of_le_length (by omega), List.take_append_of_le_length (by simp [hlength]),
      List.take_of_length_le (by simp [hlength])]
  have hbody : (header ++ body).drop 8 = body := by
    rw [← hlength, List.drop_left]
  rw [decodeState, if_neg (by simp [hlength, htake]), hdrop, hbody, if_neg (Nat.not_lt.mpr hcount)]

-- An accepted encoding is no strict prefix and no extension of another one.
theorem decodeState_unextended (hextends : Extends decodePlan) {pre suf : Bytes} {as bs : List α}
    (hwhole : decodeState magic decodePlan (pre ++ suf) = some as)
    (hpre : decodeState magic decodePlan pre = some bs) : suf = [] := by
  obtain ⟨header, body, rfl, hlength, hmagic, count, rfl, hcount, hbody⟩ := decodeState_eq_some hpre
  rw [List.append_assoc, decodeState_append hlength hmagic hcount] at hwhole
  exact (hextends.times _).finish_unextended hwhole hbody

theorem decodeState_encodeState {restored : α → α} (hmagic : magic.length = 4) {starts : List α}
    (hcount : starts.length ≤ maxCount)
    (hreads : ∀ start ∈ starts, Reads decodePlan (encodePlan start) (restored start)) :
    decodeState magic decodePlan (encodeState magic encodePlan starts) =
      some (starts.map restored) := by
  have hlength : (magic ++ Word.toLeBytes (UInt32.ofNat starts.length)).length = 8 := by
    rw [List.length_append, hmagic, Word.length_toLeBytes]
    rfl
  have htake : (magic ++ Word.toLeBytes (UInt32.ofNat starts.length)).take 4 = magic := by
    rw [← hmagic, List.take_left]
  have hdrop : (Word.ofLeBytes ((magic ++ Word.toLeBytes (UInt32.ofNat starts.length)).drop 4) :
      UInt32).toNat = starts.length := by
    rw [← hmagic, List.drop_left, Word.ofLeBytes_toLeBytes]
    refine UInt32.toNat_ofNat_of_lt' ?_
    rw [maxCount] at hcount
    change starts.length < 4294967296
    omega
  have hread := Cursor.reads_times_map hreads []
  rw [List.append_nil] at hread
  rw [encodeState, ← List.append_assoc,
    decodeState_append hlength htake (hdrop.trans_le hcount), hdrop]
  exact Cursor.finish_eq_some.mpr hread

-- Whatever is read back of a state is all that was written, however many starts it has.
theorem decodeState_of_encodeState {restored : α → α} (hmagic : magic.length = 4)
    {starts starts' : List α}
    (hyields : ∀ start ∈ starts, Yields decodePlan (encodePlan start) (restored start))
    (hbytes : ∀ start, encodePlan start ≠ [])
    (h : decodeState magic decodePlan (encodeState magic encodePlan starts) = some starts') :
    starts' = starts.map restored := by
  obtain ⟨header, body, heq, hlength, -, count, hcount, -, hbody⟩ := decodeState_eq_some h
  rw [encodeState, ← List.append_assoc] at heq
  have hheader : (magic ++ Word.toLeBytes (UInt32.ofNat starts.length)).length = header.length := by
    rw [hlength, List.length_append, hmagic, Word.length_toLeBytes]
    rfl
  obtain ⟨rfl, rfl⟩ := List.append_inj heq hheader
  rw [← hmagic, List.drop_left, Word.ofLeBytes_toLeBytes] at hcount
  -- the count may have wrapped, so it is that of a first part of the starts
  have hle : count.toNat ≤ starts.length := by
    rw [hcount, UInt32.toNat_ofNat']
    exact Nat.mod_le _ _
  have hfirst : Yields (Reader.times decodePlan (starts.take count.toNat).length)
      ((starts.take count.toNat).flatMap encodePlan) ((starts.take count.toNat).map restored) :=
    Yields.times_map fun start hs => hyields start (List.mem_of_mem_take hs)
  rw [List.length_take_of_le hle] at hfirst
  rw [← List.take_append_drop count.toNat starts, List.flatMap_append] at hbody
  obtain ⟨rfl, hrest⟩ := hfirst.finish hbody
  have hdrop : starts.drop count.toNat = [] := by
    cases hd : starts.drop count.toNat with
    | nil => rfl
    | cons start rest =>
      rw [hd, List.flatMap_cons, List.append_eq_nil_iff] at hrest
      exact absurd hrest.1 (hbytes start)
  rw [List.take_of_length_le (List.drop_eq_nil_iff.mp hdrop)]

-- What the codec of one family does for the states that it can carry.
structure RoundTrips (encode : List α → Bytes) (decode : Bytes → Option (List α))
    (restored : α → α) (starts : List α) : Prop where
  decoded : decode (encode starts) = some (starts.map restored)
  truncated : ∀ pre suf, encode starts = pre ++ suf → suf ≠ [] → decode pre = none
  extended : ∀ suf, suf ≠ [] → decode (encode starts ++ suf) = none

theorem roundTrips_of_reads {restored : α → α} (hmagic : magic.length = 4)
    (hextends : Extends decodePlan) {starts : List α} (hcount : starts.length ≤ maxCount)
    (hreads : ∀ start ∈ starts, Reads decodePlan (encodePlan start) (restored start)) :
    RoundTrips (encodeState magic encodePlan) (decodeState magic decodePlan) restored starts := by
  have hdecoded := decodeState_encodeState hmagic hcount hreads
  refine ⟨hdecoded, fun pre suf heq hsuf => ?_, fun suf hsuf => ?_⟩
  · cases hpre : decodeState magic decodePlan pre with
    | none => rfl
    | some bs =>
      rw [heq] at hdecoded
      exact absurd (decodeState_unextended hextends hdecoded hpre) hsuf
  · cases hlonger : decodeState magic decodePlan (encodeState magic encodePlan starts ++ suf) with
    | none => rfl
    | some bs => exact absurd (decodeState_unextended hextends hlonger hdecoded) hsuf

end State

section Fields

open Cursor

def StructureBounds.encode (b : StructureBounds) : Bytes := b.values.flatMap Word.toLeBytes

def decodeBounds : Cursor StructureBounds := do
  let x0 ← word
  let y0 ← word
  let z0 ← word
  let x1 ← word
  let y1 ← word
  let z1 ← word
  pure ⟨x0, y0, z0, x1, y1, z1⟩

def decodeCore : Cursor StructureStartCore := do
  let bytes ← take 32
  ofOption (StructureStartCore.decodeCoreSemantics bytes)

def decodeOrientation : Cursor StructureOrientation := do
  let value ← word
  ofOption (StructureOrientation.decode value)

-- A count that is followed by that many elements.
def decodeList {α : Type} (atLeast : Nat) (element : Cursor α) : Cursor (List α) := do
  let count ← word (α := UInt32)
  Reader.require (!(count.toNat < atLeast || count.toNat > maxCount)) ()
  Reader.times element count.toNat

def encodeList {α : Type} (encode : α → Bytes) (elements : List α) : Bytes :=
  Word.toLeBytes (UInt32.ofNat elements.length) ++ elements.flatMap encode

theorem reads_bounds (b : StructureBounds) : Reads decodeBounds b.encode b := by
  refine (reads_word b.x0).bind ?_
  refine (reads_word b.y0).bind ?_
  refine (reads_word b.z0).bind ?_
  refine (reads_word b.x1).bind ?_
  refine (reads_word b.y1).bind ?_
  exact (reads_word b.z1).bind (Reads.pure b)

theorem extends_bounds : Extends decodeBounds :=
  .bind .word fun _ => .bind .word fun _ => .bind .word fun _ => .bind .word fun _ =>
    .bind .word fun _ => .map .word _

theorem reads_core (core : StructureStartCore) :
    Reads decodeCore core.encodeCoreSemantics core.restored := by
  have htake := Reads.bytes (length_encodeCoreSemantics core) ()
  have hdecode := reads_ofOption (decodeCoreSemantics_encodeCoreSemantics core)
  have h := htake.bind (k := fun bytes => ofOption (StructureStartCore.decodeCoreSemantics bytes))
    hdecode
  rwa [List.append_nil] at h

theorem encodeCore_append_ne_nil (core : StructureStartCore) (bytes : Bytes) :
    core.encodeCoreSemantics ++ bytes ≠ [] := by
  intro h
  have hlength := congrArg List.length h
  rw [List.length_append, length_encodeCoreSemantics] at hlength
  exact absurd hlength (Nat.ne_of_gt (Nat.add_pos_left (by decide) _))

theorem extends_core : Extends decodeCore := .bind (.take 32) fun _ => .ofOption _

theorem reads_orientation (orientation : StructureOrientation) :
    Reads decodeOrientation [orientation.toU8] orientation :=
  (reads_u8 orientation.toU8).bind (k := fun value => ofOption (StructureOrientation.decode value))
    (reads_ofOption orientation.decode_toU8)

theorem extends_orientation : Extends decodeOrientation := .bind .word fun _ => .ofOption _

theorem reads_list {α : Type} {atLeast : Nat} {element : Cursor α} {encode : α → Bytes}
    {elements : List α} (hleast : atLeast ≤ elements.length) (hmost : elements.length ≤ maxCount)
    (h : ∀ a ∈ elements, Reads element (encode a) a) :
    Reads (decodeList atLeast element) (encodeList encode elements) elements := by
  have hcount : (UInt32.ofNat elements.length).toNat = elements.length := by
    refine UInt32.toNat_ofNat_of_lt' ?_
    rw [maxCount] at hmost
    change elements.length < 4294967296
    omega
  refine (reads_word (UInt32.ofNat elements.length)).bind ?_
  have hwithin : (!((UInt32.ofNat elements.length).toNat < atLeast ||
      (UInt32.ofNat elements.length).toNat > maxCount)) = true := by
    rw [hcount]
    simp only [Bool.not_eq_true', Bool.or_eq_false_iff, decide_eq_false_iff_not]
    exact ⟨Nat.not_lt.mpr hleast, Nat.not_lt.mpr hmost⟩
  refine (Reads.require hwithin ()).bind_silent ?_
  rw [hcount]
  exact Reads.times h

theorem yields_list {α : Type} (atLeast : Nat) {element : Cursor α} {encode : α → Bytes}
    {elements : List α} (hcount : elements.length < 4294967296)
    (h : ∀ a ∈ elements, Yields element (encode a) a) :
    Yields (decodeList atLeast element) (encodeList encode elements) elements := by
  have hlength : (UInt32.ofNat elements.length).toNat = elements.length :=
    UInt32.toNat_ofNat_of_lt' hcount
  refine (reads_word (UInt32.ofNat elements.length)).yields.bind ?_
  refine (Yields.require _).bind_silent ?_
  have helements := Yields.times_map (f := id) h
  rwa [List.map_id, ← hlength] at helements

theorem extends_list {α : Type} (atLeast : Nat) {element : Cursor α} (h : Extends element) :
    Extends (decodeList atLeast element) :=
  .bind .word fun _ => .bind (.require _) fun _ => h.times _

end Fields

end Cobblestone.Structure
