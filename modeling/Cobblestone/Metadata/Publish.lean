import Cobblestone.Lib.FileSystem
import Cobblestone.Metadata.CodecExact

namespace Cobblestone.Metadata

open Lib Effect FileSystem Storage

inductive FileName where
  | metadata
  | temporary (id : Nat)
deriving DecidableEq, Repr

abbrev Disk := FileSystem FileName UInt8

abbrev DiskStep (α : Type) := Stoppable MetadataError Disk α

-- How the steps of one call end, how much of the file a write that does not succeed writes, and
-- what the unsynced files hold after the process has stopped.
structure Faults where
  createDir : StepOutcome
  probe : StepOutcome
  openTemporary : StepOutcome
  removeStale : StepOutcome
  reopenTemporary : StepOutcome
  write : StepOutcome
  written : Nat
  syncFile : StepOutcome
  install : StepOutcome
  discard : StepOutcome
  removeTemporary : StepOutcome
  syncDirectory : StepOutcome
  read : StepOutcome
  garbage : Nat → Bytes

variable (crates : Crates) (faults : Faults) (temporary : Nat)

def io {α : Type} (step : Io FileName UInt8 α) : DiskStep α := orElse (fun _ => .io) step

def openTemporary : DiskStep Nat := do
  match ← attempt (createNew (.temporary temporary) faults.openTemporary) with
  | .ok file => pure file
  | .error .alreadyExists => do
    io (remove (.temporary temporary) faults.removeStale)
    io (createNew (.temporary temporary) faults.reopenTemporary)
  | .error _ => fail .io

-- The result of this `remove_file` is dropped.
def discardTemporary : DiskStep Unit := do
  let _ ← attempt (remove (.temporary temporary) faults.discard)
  pure ()

def linkNew : DiskStep Unit := do
  match ← attempt (hardLink (.temporary temporary) .metadata faults.install) with
  | .ok () => io (remove (.temporary temporary) faults.removeTemporary)
  | .error .alreadyExists => do
    discardTemporary faults temporary
    fail .worldMetadataAlreadyExists
  | .error _ => do
    discardTemporary faults temporary
    fail .io

def renameOver : DiskStep Unit := do
  match ← attempt (rename (.temporary temporary) .metadata faults.install) with
  | .ok () => pure ()
  | .error _ => do
    discardTemporary faults temporary
    fail .io

def writeTemporary (encoded : Bytes) : DiskStep Unit := do
  let file ← openTemporary faults temporary
  io (writeAll file encoded faults.write faults.written)
  io (syncFile file faults.syncFile)

def publishMetadata (metadata : WorldMetadata) (createOnly : Bool) : DiskStep Unit := do
  let encoded ← orFail (encodeWorldMetadata crates metadata)
  writeTemporary faults temporary encoded
  if createOnly then linkNew faults temporary else renameOver faults temporary
  io (syncDirectory faults.syncDirectory)

def decodeMetadataFile (encoded : Bytes) : Except MetadataError WorldMetadata := do
  let max := worldMetadataEnvelopeBytes + maxWorldMetadataPayloadBytes
  ensure (encoded.length ≤ max) (.worldMetadataTooLarge encoded.length max)
  decodeWorldMetadata crates encoded

def readMetadata : DiskStep WorldMetadata := do
  let encoded ← io (readFile .metadata faults.read)
  orFail (decodeMetadataFile crates encoded)

-- `create_dir_all` of the region directory, of which no call here reads anything.
def createRegionsDir : DiskStep Unit := performs faults.createDir (fun disk => (.ok (), disk)) .io

-- The three calls give the metadata that the handle then has.
def createWorld (metadata : WorldMetadata) : DiskStep WorldMetadata := do
  orFail (validateMetadata metadata)
  orFail (ensure (metadata.generation = 1)
    (.invalidWorldMetadata "new world metadata generation must be 1"))
  createRegionsDir faults
  if ← pathExists .metadata faults.probe then fail .worldMetadataAlreadyExists
  publishMetadata crates faults temporary metadata true
  pure metadata

def openWorld : DiskStep WorldMetadata := do
  let metadata ← readMetadata crates faults
  orFail (validateMetadata metadata)
  createRegionsDir faults
  pure metadata

def nextGeneration (generation : UInt64) : Except MetadataError UInt64 :=
  if generation.toNat + 1 < UInt64.size then .ok (generation + 1)
  else .error .metadataGenerationExhausted

-- What `replace_metadata` writes for a handle, once the checks before the first step pass.
def replacement (self metadata : WorldMetadata) : Except MetadataError WorldMetadata := do
  ensure (metadata.worldUuid = self.worldUuid) .worldMismatch
  let generation ← nextGeneration self.generation
  let metadata := { metadata with generation := generation }
  validateMetadata metadata
  pure metadata

def replaceMetadata (self metadata : WorldMetadata) : DiskStep WorldMetadata := do
  let metadata ← orFail (replacement self metadata)
  publishMetadata crates faults temporary metadata false
  pure metadata

end Cobblestone.Metadata

namespace Cobblestone.Metadata

open Lib Effect FileSystem Storage

-- The steps up to the synced temporary file all succeed.
structure Writes (faults : Faults) (temporary : Nat) (disk : Disk) : Prop where
  opened : faults.openTemporary = .succeeds
  stale : (disk.names (.temporary temporary)).isSome = true →
    faults.removeStale = .succeeds ∧ faults.reopenTemporary = .succeeds
  written : faults.write = .succeeds
  synced : faults.syncFile = .succeeds

-- A name leads to a synced file with this content.
def HoldsFile (disk : Disk) (name : FileName) (content : Bytes) : Prop :=
  ∃ file : Nat, disk.names name = some file ∧ disk.files[file]? = some ⟨content, true⟩

-- A name leads to a fresh empty file.
structure Fresh (base : List (FileState UInt8)) (name : FileName) (file : Nat) (disk : Disk) :
    Prop where
  named : disk.names name = some file
  empty : disk.files[file]? = some ⟨[], false⟩
  fresh : base.length ≤ file

section

variable {faults : Faults} {temporary : Nat} {disk disk' : Disk}
  {base : List (FileState UInt8)} {led : Option Nat} {file : Nat} {encoded : Bytes}

abbrev Leaves (base : List (FileState UInt8)) (led : Option Nat) : Disk → Disk → Prop :=
  keeps (Undisturbed base FileName.metadata led)

theorem moves_io {α : Type} {R : Disk → Disk → Prop} {step : Io FileName UInt8 α} (h : Moves R step) :
    Moves R (io step) := moves_orElse h

theorem io_ok {α : Type} {step : Io FileName UInt8 α} {a : α} :
    (io step).exec disk = (.ok a, disk') ↔ step.exec disk = (.ok a, disk') := orElse_ok

theorem temporary_ne (id : Nat) : FileName.metadata ≠ .temporary id := by simp

theorem moves_openTemporary (faults : Faults) (temporary : Nat) :
    Moves (Leaves base led) (openTemporary faults temporary) := by
  have hne := temporary_ne temporary
  refine (moves_attempt (moves_createNew hne)).bind fun result => ?_
  rcases result with (_ | _ | _) | file
  · exact (moves_io (moves_remove hne)).bind fun _ => moves_io (moves_createNew hne)
  · exact moves_fail
  · exact moves_fail
  · exact Moves.pure file

theorem createNew_ok {outcome : StepOutcome} {name : FileName}
    (h : (createNew (β := UInt8) name outcome).exec disk = (.ok file, disk')) :
    outcome = .succeeds ∧ disk.names name = none ∧ Fresh disk.files name file disk' := by
  obtain ⟨hout, h⟩ := performs_ok.mp h
  split at h
  · cases h
  · rename_i hnone
    cases h
    exact ⟨hout, by simpa using hnone, names_pointTo_self _, by simp [pointTo], le_refl _⟩

theorem createNew_exists {outcome : StepOutcome} {name : FileName}
    (h : (createNew (β := UInt8) name outcome).exec disk =
      (.error (.failed .alreadyExists), disk')) : outcome = .succeeds ∧ disk' = disk := by
  rcases performs_failed.mp h with ⟨hout, hop⟩ | ⟨-, herror, -⟩
  · split at hop
    · cases hop
      exact ⟨hout, rfl⟩
    · cases hop
  · cases herror

theorem writeAll_ok {outcome : StepOutcome} {written : Nat}
    (h : (writeAll file encoded outcome written).exec disk = (.ok (), disk')) :
    outcome = .succeeds ∧ disk' = appendTo file encoded disk := by
  cases outcome with
  | succeeds =>
    cases h
    exact ⟨rfl, rfl⟩
  | fails | stops => cases h

theorem remove_ok {outcome : StepOutcome} {name : FileName}
    (h : (remove (β := UInt8) name outcome).exec disk = (.ok (), disk')) :
    outcome = .succeeds ∧ disk' = disk.pointTo name none := by
  obtain ⟨hout, h⟩ := performs_ok.mp h
  split at h
  · cases h
    exact ⟨hout, rfl⟩
  · cases h

theorem openTemporary_ok (h : (openTemporary faults temporary).exec disk = (.ok file, disk')) :
    (faults.openTemporary = .succeeds ∧ ((disk.names (.temporary temporary)).isSome = true →
      faults.removeStale = .succeeds ∧ faults.reopenTemporary = .succeeds)) ∧
      Fresh disk.files (.temporary temporary) file disk' := by
  obtain ⟨result, mid, hfirst, hrest⟩ := bind_ok.mp h
  rcases attempt_ok.mp hfirst with ⟨a, rfl, hcreate⟩ | ⟨e, rfl, hcreate⟩
  · cases hrest
    obtain ⟨hout, hnone, hfresh⟩ := createNew_ok hcreate
    exact ⟨⟨hout, by simp [hnone]⟩, hfresh⟩
  · cases e with
    | notFound | other => cases hrest
    | alreadyExists =>
      obtain ⟨hout, rfl⟩ := createNew_exists hcreate
      obtain ⟨_, cleared, hremove, hcreate'⟩ := bind_ok.mp hrest
      obtain ⟨hremoved, rfl⟩ := remove_ok (io_ok.mp hremove)
      obtain ⟨hreopened, -, hfresh⟩ := createNew_ok (io_ok.mp hcreate')
      exact ⟨⟨hout, fun _ => ⟨hremoved, hreopened⟩⟩, hfresh⟩

theorem writeTemporary_ok
    (h : (writeTemporary faults temporary encoded).exec disk = (.ok (), disk')) :
    Writes faults temporary disk ∧ HoldsFile disk' (.temporary temporary) encoded := by
  obtain ⟨file, opened, hopen, hrest⟩ := bind_ok.mp h
  obtain ⟨_, written, hwrite, hsync⟩ := bind_ok.mp hrest
  obtain ⟨⟨ho, hstale⟩, hfresh⟩ := openTemporary_ok hopen
  obtain ⟨hw, rfl⟩ := writeAll_ok (io_ok.mp hwrite)
  obtain ⟨hs, heq⟩ := performs_ok.mp (io_ok.mp hsync)
  cases heq
  refine ⟨⟨ho, hstale, hw, hs⟩, file, hfresh.named, ?_⟩
  simp [markSynced, appendTo, hfresh.empty]

theorem moves_writeTemporary (faults : Faults) (temporary : Nat) (encoded : Bytes)
    (hbase : base.length ≤ disk.files.length) : 
    Undisturbed base FileName.metadata led disk →
      Undisturbed base .metadata led ((writeTemporary faults temporary encoded).exec disk).2 := by
  intro hdisk
  rw [writeTemporary, exec_bind]
  rcases hopen : (openTemporary faults temporary).exec disk with ⟨_ | file, opened⟩
  · exact (moves_openTemporary faults temporary).after hopen hdisk
  · have hfresh := (openTemporary_ok hopen).2.fresh
    have hmoves : Moves (Leaves base led) (do
        io (writeAll file encoded faults.write faults.written)
        io (syncFile file faults.syncFile)) :=
      (moves_io (moves_writeAll (hbase.trans hfresh))).bind fun _ =>
        moves_io (moves_syncFile (hbase.trans hfresh))
    exact hmoves opened ((moves_openTemporary faults temporary).after hopen hdisk)

theorem createNew_none (disk : Disk) {name : FileName} (h : disk.names name = none) :
    ∃ file disk', (createNew (β := UInt8) name .succeeds).exec disk = (.ok file, disk') :=
  ⟨_, _, performs_ok.mpr ⟨rfl, if_neg (by simp [h])⟩⟩

theorem Writes.openTemporary (h : Writes faults temporary disk) :
    ∃ file disk', (openTemporary faults temporary).exec disk = (.ok file, disk') := by
  cases htaken : (disk.names (.temporary temporary)).isSome with
  | false =>
    obtain ⟨file, disk', hcreate⟩ := createNew_none disk (by simpa using htaken)
    rw [← h.opened] at hcreate
    exact ⟨file, disk', bind_ok.mpr ⟨_, _, attempt_ok.mpr (.inl ⟨_, rfl, hcreate⟩), rfl⟩⟩
  | true =>
    obtain ⟨hremove, hreopen⟩ := h.stale htaken
    have hexists : (createNew (β := UInt8) (.temporary temporary) faults.openTemporary).exec disk =
        (.error (.failed .alreadyExists), disk) :=
      performs_failed.mpr (.inl ⟨h.opened, if_pos htaken⟩)
    have hcleared : (remove (β := UInt8) (.temporary temporary) faults.removeStale).exec disk =
        (.ok (), disk.pointTo (.temporary temporary) none) :=
      performs_ok.mpr ⟨hremove, if_pos htaken⟩
    obtain ⟨file, disk', hcreate⟩ := createNew_none (disk.pointTo (.temporary temporary) none)
      (names_pointTo_self none)
    rw [← hreopen] at hcreate
    refine ⟨file, disk', bind_ok.mpr ⟨_, _, attempt_ok.mpr (.inr ⟨_, rfl, hexists⟩), ?_⟩⟩
    exact bind_ok.mpr ⟨_, _, io_ok.mpr hcleared, io_ok.mpr hcreate⟩

theorem Writes.writeTemporary (h : Writes faults temporary disk) (encoded : Bytes) :
    ∃ disk', (writeTemporary faults temporary encoded).exec disk = (.ok (), disk') := by
  obtain ⟨file, opened, hopen⟩ := h.openTemporary
  have hwrite : (writeAll file encoded faults.write faults.written).exec opened =
      (.ok (), appendTo file encoded opened) := by
    rw [h.written]
    rfl
  have hsync : (syncFile file faults.syncFile).exec
      (appendTo file encoded opened) = (.ok (), markSynced file (appendTo file encoded opened)) :=
    performs_ok.mpr ⟨h.synced, rfl⟩
  exact ⟨_, bind_ok.mpr ⟨file, opened, hopen,
    bind_ok.mpr ⟨(), _, io_ok.mpr hwrite, io_ok.mpr hsync⟩⟩⟩

theorem Undisturbed.holdsFile {content : Bytes} (h : Undisturbed base FileName.metadata (some file) disk)
    (hfile : base[file]? = some ⟨content, true⟩) : HoldsFile disk .metadata content := by
  obtain ⟨rest, hrest⟩ := h.files
  refine ⟨file, h.name, ?_⟩
  rw [← hrest, List.getElem?_append_left (List.getElem?_eq_some_iff.mp hfile).1, hfile]

theorem moves_discardTemporary (faults : Faults) (temporary : Nat) :
    Moves (Leaves base led) (discardTemporary faults temporary) :=
  (moves_attempt (moves_remove (temporary_ne temporary))).bind fun _ => Moves.pure ()

-- The way out of a step that failed: nothing but the temporary name is touched.
theorem discard_fail {error : MetadataError} {result : Except (Interrupt MetadataError) Unit}
    (h : (do
      discardTemporary faults temporary
      fail error : DiskStep Unit).exec disk = (result, disk')) :
    result ≠ .ok () ∧ ∀ base led, Leaves base led disk disk' := by
  have hmoves {base led} : Moves (Leaves base led) (do
      discardTemporary faults temporary
      fail error : DiskStep Unit) := (moves_discardTemporary faults temporary).bind fun _ => moves_fail
  refine ⟨?_, fun base led => hmoves.after h⟩
  rintro rfl
  obtain ⟨_, _, -, hfail⟩ := bind_ok.mp h
  cases hfail

theorem renameOver_spec {result : Except (Interrupt MetadataError) Unit}
    (hheld : HoldsFile disk (.temporary temporary) encoded)
    (h : (renameOver faults temporary).exec disk = (result, disk')) :
    faults.install = .succeeds ∧ result = .ok () ∧ HoldsFile disk' .metadata encoded ∨
      faults.install ≠ .succeeds ∧ result ≠ .ok () ∧ ∀ base led, Leaves base led disk disk' := by
  obtain ⟨file, hname, hfile⟩ := hheld
  cases hinstall : faults.install with
  | succeeds =>
    have hrename : (rename (β := UInt8) (.temporary temporary) .metadata faults.install).exec disk =
        (.ok (), (disk.pointTo (.temporary temporary) none).pointTo .metadata (some file)) :=
      performs_ok.mpr ⟨hinstall, by rw [hname]⟩
    have hexec : (renameOver faults temporary).exec disk =
        (.ok (), (disk.pointTo (.temporary temporary) none).pointTo .metadata (some file)) :=
      bind_ok.mpr ⟨_, _, attempt_ok.mpr (.inl ⟨_, rfl, hrename⟩), rfl⟩
    rw [hexec] at h
    cases h
    exact .inl ⟨rfl, rfl, file, names_pointTo_self _, hfile⟩
  | fails =>
    have hrename : (rename (β := UInt8) (.temporary temporary) .metadata faults.install).exec disk =
        (.error (.failed .other), disk) := performs_failed.mpr (.inr ⟨hinstall, rfl, rfl⟩)
    rw [renameOver, exec_bind, attempt, exec_ofOp, hrename] at h
    exact .inr ⟨by simp, discard_fail h⟩
  | stops =>
    rw [renameOver, hinstall] at h
    cases h
    exact .inr ⟨by simp, by simp, fun _ _ hd => hd⟩

theorem linkNew_spec {result : Except (Interrupt MetadataError) Unit}
    (hheld : HoldsFile disk (.temporary temporary) encoded)
    (h : (linkNew faults temporary).exec disk = (result, disk')) :
    disk.names .metadata = none ∧ HoldsFile disk' .metadata encoded ∨
      result ≠ .ok () ∧ ∀ base led, Leaves base led disk disk' := by
  obtain ⟨file, hname, hfile⟩ := hheld
  cases hinstall : faults.install with
  | succeeds =>
    cases htaken : disk.names .metadata with
    | none =>
      have hlink : (hardLink (β := UInt8) (.temporary temporary) .metadata faults.install).exec disk =
          (.ok (), disk.pointTo .metadata (some file)) :=
        performs_ok.mpr ⟨hinstall, by rw [hname]; exact if_neg (by simp [htaken])⟩
      rw [linkNew, exec_bind, attempt, exec_ofOp, hlink] at h
      have hmoves : Moves (keeps (Undisturbed disk.files .metadata (some file)))
          (io (remove (.temporary temporary) faults.removeTemporary)) :=
        moves_io (moves_remove (temporary_ne temporary))
      have hkept := hmoves.after h ⟨List.prefix_refl _, names_pointTo_self _⟩
      exact .inl ⟨rfl, Undisturbed.holdsFile hkept hfile⟩
    | some taken =>
      have hlink : (hardLink (β := UInt8) (.temporary temporary) .metadata faults.install).exec disk =
          (.error (.failed .alreadyExists), disk) :=
        performs_failed.mpr (.inl ⟨hinstall, by rw [hname]; exact if_pos (by simp [htaken])⟩)
      rw [linkNew, exec_bind, attempt, exec_ofOp, hlink] at h
      exact .inr (discard_fail h)
  | fails =>
    have hlink : (hardLink (β := UInt8) (.temporary temporary) .metadata faults.install).exec disk =
        (.error (.failed .other), disk) := performs_failed.mpr (.inr ⟨hinstall, rfl, rfl⟩)
    rw [linkNew, exec_bind, attempt, exec_ofOp, hlink] at h
    exact .inr (discard_fail h)
  | stops =>
    rw [linkNew, hinstall] at h
    cases h
    exact .inr ⟨by simp, fun _ _ hd => hd⟩

-- The steps up to the rename all succeed.
structure Renames (faults : Faults) (temporary : Nat) (disk : Disk) : Prop where
  writes : Writes faults temporary disk
  install : faults.install = .succeeds

def syncReply : StepOutcome → Except (Interrupt MetadataError) Unit
  | .succeeds => .ok ()
  | .fails => .error (.failed .io)
  | .stops => .error .stopped

theorem exec_syncDirectory (outcome : StepOutcome) :
    (io (syncDirectory outcome)).exec disk = (syncReply outcome, disk) := by
  cases outcome <;> rfl

variable {crates : Crates} {metadata : WorldMetadata}
  {result : Except (Interrupt MetadataError) Unit}

theorem exec_publishMetadata {createOnly : Bool}
    (henc : encodeWorldMetadata crates metadata = .ok encoded) :
    (publishMetadata crates faults temporary metadata createOnly).exec disk =
      (do
        writeTemporary faults temporary encoded
        if createOnly then linkNew faults temporary else renameOver faults temporary
        io (syncDirectory faults.syncDirectory) : DiskStep Unit).exec disk := by
  rw [publishMetadata, henc, exec_bind]
  rfl

theorem publishMetadata_create (henc : encodeWorldMetadata crates metadata = .ok encoded)
    (h : (publishMetadata crates faults temporary metadata true).exec disk = (result, disk')) :
    disk.names .metadata = none ∧ HoldsFile disk' .metadata encoded ∨
      result ≠ .ok () ∧ Undisturbed disk.files .metadata (disk.names .metadata) disk' := by
  rw [exec_publishMetadata henc] at h
  have hkept := moves_writeTemporary faults temporary encoded (le_refl _)
    (undisturbed_refl disk FileName.metadata)
  rcases hwrite : (writeTemporary faults temporary encoded).exec disk with ⟨_ | _, written⟩
  all_goals rw [hwrite] at hkept
  · rw [bind_error hwrite] at h
    cases h
    exact .inr ⟨by simp, hkept⟩
  · obtain ⟨-, hheld⟩ := writeTemporary_ok hwrite
    rw [exec_bind_ok hwrite, if_pos rfl] at h
    rcases hlink : (linkNew faults temporary).exec written with ⟨_ | _, linked⟩
    · rw [bind_error hlink] at h
      cases h
      rcases linkNew_spec hheld hlink with ⟨hnone, hnew⟩ | ⟨hresult, hleaves⟩
      · exact .inl ⟨hkept.name.symm.trans hnone, hnew⟩
      · exact .inr ⟨by simp, hleaves _ _ hkept⟩
    · rw [exec_bind_ok hlink, exec_syncDirectory] at h
      cases h
      rcases linkNew_spec hheld hlink with ⟨hnone, hnew⟩ | ⟨hresult, -⟩
      · exact .inl ⟨hkept.name.symm.trans hnone, hnew⟩
      · exact absurd rfl hresult

theorem publishMetadata_replace (henc : encodeWorldMetadata crates metadata = .ok encoded)
    (h : (publishMetadata crates faults temporary metadata false).exec disk = (result, disk')) :
    Renames faults temporary disk ∧ HoldsFile disk' .metadata encoded ∧
        result = syncReply faults.syncDirectory ∨
      ¬ Renames faults temporary disk ∧ result ≠ .ok () ∧
        Undisturbed disk.files .metadata (disk.names .metadata) disk' := by
  rw [exec_publishMetadata henc] at h
  have hkept := moves_writeTemporary faults temporary encoded (le_refl _)
    (undisturbed_refl disk FileName.metadata)
  rcases hwrite : (writeTemporary faults temporary encoded).exec disk with ⟨_ | _, written⟩
  all_goals rw [hwrite] at hkept
  · rw [bind_error hwrite] at h
    cases h
    refine .inr ⟨fun hr => ?_, by simp, hkept⟩
    obtain ⟨_, hdone⟩ := hr.writes.writeTemporary encoded
    rw [hdone] at hwrite
    cases hwrite
  · obtain ⟨hwrites, hheld⟩ := writeTemporary_ok hwrite
    rw [exec_bind_ok hwrite, if_neg (by simp)] at h
    rcases hrename : (renameOver faults temporary).exec written with ⟨_ | _, renamed⟩
    · rw [bind_error hrename] at h
      cases h
      rcases renameOver_spec hheld hrename with ⟨-, hresult, -⟩ | ⟨hinstall, -, hleaves⟩
      · cases hresult
      · exact .inr ⟨fun hr => hinstall hr.install, by simp, hleaves _ _ hkept⟩
    · rw [exec_bind_ok hrename, exec_syncDirectory] at h
      cases h
      rcases renameOver_spec hheld hrename with ⟨hinstall, -, hnew⟩ | ⟨-, hresult, -⟩
      · exact .inl ⟨⟨hwrites, hinstall⟩, hnew, rfl⟩
      · exact absurd rfl hresult

end

end Cobblestone.Metadata
