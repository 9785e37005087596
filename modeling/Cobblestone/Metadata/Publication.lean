import Cobblestone.Metadata.Publish

namespace Cobblestone.Metadata

open Lib Effect FileSystem Storage Region

variable (crates : Crates)

def Faults.calm : Faults where
  createDir := .succeeds
  probe := .succeeds
  openTemporary := .succeeds
  removeStale := .succeeds
  reopenTemporary := .succeeds
  write := .succeeds
  written := 0
  syncFile := .succeeds
  install := .succeeds
  discard := .succeeds
  removeTemporary := .succeeds
  syncDirectory := .succeeds
  read := .succeeds
  garbage _ := []

-- What `open` returns when none of its own steps fails.
def openResult (disk : Disk) : Except (Interrupt MetadataError) WorldMetadata :=
  ((openWorld crates .calm).exec disk).1

-- The storage of one world and the metadata in the live handle.
structure Session where
  disk : Disk
  live : Option WorldMetadata

inductive Call where
  | create (faults : Faults) (temporary : Nat) (metadata : WorldMetadata)
  | openWorld (faults : Faults)
  | replace (faults : Faults) (temporary : Nat) (metadata : WorldMetadata)
  | stop (faults : Faults)

abbrev Reply := Except (Interrupt MetadataError) WorldMetadata

def Session.answer (s : Session) (faults : Faults) : Reply × Disk → Reply × Session
  | (.ok metadata, disk) => (.ok metadata, ⟨disk, some metadata⟩)
  | (.error (.failed error), disk) => (.error (.failed error), ⟨disk, s.live⟩)
  | (.error .stopped, disk) => (.error .stopped, ⟨disk.restart faults.garbage, none⟩)

-- Without a handle there is nothing to call `replace_metadata` on.
def Session.perform (s : Session) : Call → Option Reply × Session
  | .create faults temporary metadata =>
    (s.answer faults ((createWorld crates faults temporary metadata).exec s.disk)).map some id
  | .openWorld faults => (s.answer faults ((Metadata.openWorld crates faults).exec s.disk)).map some id
  | .replace faults temporary metadata => match s.live with
    | none => (none, s)
    | some self => (s.answer faults
        ((replaceMetadata crates faults temporary self metadata).exec s.disk)).map some id
  | .stop faults => (some (.error .stopped), ⟨s.disk.restart faults.garbage, none⟩)

def Session.run (s : Session) (calls : List Call) : Session :=
  calls.foldl (fun s call => (s.perform crates call).2) s

-- Nothing is known of what is there when the first call is made.
def Session.start : Option Bytes → Session
  | none => ⟨⟨[], fun _ => none⟩, none⟩
  | some encoded => ⟨⟨[⟨encoded, true⟩], fun name => if name = .metadata then some 0 else none⟩, none⟩

-- What a call would publish.
def Session.Publishes (s : Session) (published : WorldMetadata) : Call → Prop
  | .create _ _ metadata => published = metadata
  | .replace _ _ metadata => ∃ self, s.live = some self ∧ replacement self metadata = .ok published
  | .openWorld _ | .stop _ => False

structure AtomicCall (s : Session) (call : Call) : Prop where
  old_or_new : openResult crates (s.perform crates call).2.disk = openResult crates s.disk ∨
    ∃ published, s.Publishes published call ∧
      openResult crates (s.perform crates call).2.disk = .ok published
  published : ∀ metadata, (s.perform crates call).1 = some (.ok metadata) →
    openResult crates (s.perform crates call).2.disk = .ok metadata ∧
      (s.perform crates call).2.live = some metadata
  failed : ∀ error, (s.perform crates call).1 = some (.error (.failed error)) →
    ∀ metadata, (s.perform crates call).2.live = some metadata →
      openResult crates (s.perform crates call).2.disk = .ok metadata

-- What was once there is still there, or was followed by a later generation.
def Follows (earlier later : Reply) : Prop :=
  ∀ metadata, earlier = .ok metadata → ∃ now, later = .ok now ∧
    (now = metadata ∨ metadata.generation < now.generation)

structure AtomicRun (world : Option Bytes) (calls : List Call) : Prop where
  atomic : ∀ before call after, calls = before ++ call :: after →
    AtomicCall crates ((Session.start world).run crates before) call
  ordered : ∀ before middle after, calls = before ++ middle ++ after →
    Follows (openResult crates ((Session.start world).run crates before).disk)
      (openResult crates ((Session.start world).run crates (before ++ middle)).disk)

-- A replacement that has renamed its file is not told afterwards that a step failed.
def Session.Confirms (s : Session) : Call → Prop
  | .replace faults temporary metadata => ∀ self published, s.live = some self →
    replacement self metadata = .ok published → Renames faults temporary s.disk →
      faults.syncDirectory ≠ .fails
  | .create .. | .openWorld _ | .stop _ => True

section

variable {crates} {disk disk' : Disk} {faults : Faults} {metadata published : WorldMetadata}
  {s : Session} {call : Call} {encoded : Bytes} {temporary : Nat}

structure Settled (disk : Disk) : Prop where
  synced : ∀ file : Nat, disk.names .metadata = some file → ∃ content : Bytes,
    disk.files[file]? = some ⟨content, true⟩

theorem Undisturbed.settled (h : Settled disk)
    (hu : Undisturbed disk.files FileName.metadata (disk.names .metadata) disk') :
    Settled disk' ∧ disk'.read .metadata = disk.read .metadata := by
  obtain ⟨rest, hrest⟩ := hu.files
  have hsame {file : Nat} (hf : disk.names .metadata = some file) :
      disk'.files[file]? = disk.files[file]? := by
    obtain ⟨content, hc⟩ := h.synced file hf
    rw [← hrest, List.getElem?_append_left (List.getElem?_eq_some_iff.mp hc).1]
  refine ⟨⟨fun file hf => ?_⟩, ?_⟩
  · rw [hu.name] at hf
    rw [hsame hf]
    exact h.synced file hf
  · rw [FileSystem.read, FileSystem.read, hu.name]
    cases hf : disk.names .metadata with
    | none => rfl
    | some file => rw [Option.bind_some, Option.bind_some, hsame hf]

theorem HoldsFile.settled (h : HoldsFile disk .metadata encoded) :
    Settled disk ∧ disk.read .metadata = some encoded := by
  obtain ⟨file, hname, hfile⟩ := h
  refine ⟨⟨fun other ho => ?_⟩, ?_⟩
  · rw [hname] at ho
    cases ho
    exact ⟨encoded, hfile⟩
  · rw [FileSystem.read, hname, Option.bind_some, hfile]
    rfl

theorem Settled.restart (h : Settled disk) (garbage : Nat → Bytes) :
    Settled (disk.restart garbage) ∧ (disk.restart garbage).read .metadata = disk.read .metadata := by
  have hsame {file : Nat} (hf : disk.names .metadata = some file) :
      (disk.restart garbage).files[file]? = disk.files[file]? := by
    obtain ⟨content, hc⟩ := h.synced file hf
    simp [FileSystem.restart, hc]
  refine ⟨⟨fun file hf => ?_⟩, ?_⟩
  · rw [hsame hf]
    exact h.synced file hf
  · rw [FileSystem.read, FileSystem.read]
    change (disk.names .metadata).bind _ = _
    cases hf : disk.names .metadata with
    | none => rfl
    | some file => rw [Option.bind_some, Option.bind_some, hsame hf]

def acceptedMetadata (crates : Crates) (encoded : Bytes) : Except MetadataError WorldMetadata := do
  let metadata ← decodeMetadataFile crates encoded
  validateMetadata metadata
  pure metadata

def openReply (crates : Crates) : Option Bytes → Reply
  | none => .error (.failed .io)
  | some encoded => match acceptedMetadata crates encoded with
    | .ok metadata => .ok metadata
    | .error error => .error (.failed error)

theorem openResult_eq (disk : Disk) :
    openResult crates disk = openReply crates (disk.read .metadata) := by
  rw [openResult, openWorld, readMetadata]
  cases hread : disk.read .metadata with
  | none =>
    have hio : (io (readFile (β := UInt8) FileName.metadata Faults.calm.read)).exec disk =
        (.error (.failed .io), disk) := by
      simp [io, orElse, readFile, performs, Faults.calm, hread]
    rw [bind_error (bind_error hio)]
    rfl
  | some encoded =>
    have hio : (io (readFile (β := UInt8) FileName.metadata Faults.calm.read)).exec disk =
        (.ok encoded, disk) := io_ok.mpr (performs_ok.mpr ⟨rfl, by rw [hread]⟩)
    rw [exec_bind, exec_bind_ok hio, openReply, acceptedMetadata]
    cases hdecode : decodeMetadataFile crates encoded with
    | error e => rfl
    | ok metadata =>
      cases hvalid : validateMetadata metadata with
      | error e => simp [orFail, exec_bind, hvalid]
      | ok _ =>
        simp [orFail, hvalid]
        rfl

theorem openWorld_spec {reply : Reply} (h : (openWorld crates faults).exec disk = (reply, disk')) :
    disk' = disk ∧ ∀ metadata, reply = .ok metadata → openResult crates disk = .ok metadata := by
  refine ⟨?_, ?_⟩
  · have hread : Moves (keeps (· = disk)) (readMetadata crates faults) :=
      (moves_io (moves_performs fun d hd => by split <;> exact hd)).bind fun _ => moves_orFail _
    have hmoves : Moves (keeps (· = disk)) (openWorld crates faults) :=
      hread.bind fun _ => (moves_orFail _).bind fun _ =>
        (moves_performs fun _ hd => hd).bind fun _ => Moves.pure _
    exact hmoves.after h rfl
  · rintro metadata rfl
    obtain ⟨found, d, hread, hrest⟩ := bind_ok.mp h
    obtain ⟨encoded, d', hfile, hdecode⟩ := bind_ok.mp hread
    obtain ⟨hdecoded, rfl⟩ := orFail_ok.mp hdecode
    obtain ⟨_, d'', hvalid, hdone⟩ := bind_ok.mp hrest
    obtain ⟨hvalidated, rfl⟩ := orFail_ok.mp hvalid
    obtain ⟨_, _, -, hpure⟩ := bind_ok.mp hdone
    cases hpure
    obtain ⟨-, hop⟩ := performs_ok.mp (io_ok.mp hfile)
    split at hop
    · rename_i bytes hbytes
      cases hop
      rw [openResult_eq, hbytes, openReply, acceptedMetadata, hdecoded, ok_bind, hvalidated]
      rfl
    · cases hop

theorem openResult_congr (h : disk'.read .metadata = disk.read .metadata) :
    openResult crates disk' = openResult crates disk := by
  rw [openResult_eq, openResult_eq, h]

theorem openResult_encoded (hv : validateMetadata metadata = .ok ())
    (henc : encodeWorldMetadata crates metadata = .ok encoded)
    (h : disk.read .metadata = some encoded) : openResult crates disk = .ok metadata := by
  obtain ⟨hlen, -, hdecode⟩ := encoded_round_trip (validateMetadata_ok_iff.mp hv) henc
  rw [openResult_eq, h, openReply, acceptedMetadata, decodeMetadataFile,
    decide_eq_true hlen, ensure_true, ok_bind, hdecode, ok_bind, hv]
  rfl

theorem HoldsFile.openResult (hv : validateMetadata metadata = .ok ())
    (henc : encodeWorldMetadata crates metadata = .ok encoded)
    (h : HoldsFile disk .metadata encoded) : openResult crates disk = .ok metadata :=
  openResult_encoded hv henc h.settled.2

structure Session.Intact (crates : Crates) (s : Session) : Prop where
  settled : Settled s.disk
  live : ∀ metadata, s.live = some metadata → Metadata.openResult crates s.disk = .ok metadata

-- What one call does to the disk, with the reply it would give.
structure Answered (crates : Crates) (s : Session) (call : Call) (reply : Reply) (disk' : Disk) :
    Prop where
  settled : Settled disk'
  change : (openResult crates disk' = openResult crates s.disk ∧
      ∀ metadata, reply = .ok metadata → openResult crates s.disk = .ok metadata) ∨
    ∃ published, s.Publishes published call ∧ openResult crates disk' = .ok published ∧
      Follows (openResult crates s.disk) (.ok published) ∧
      (∀ metadata, reply = .ok metadata → metadata = published) ∧
      ∀ error, reply = .error (.failed error) → s.live = none

theorem Follows.refl (reply : Reply) : Follows reply reply :=
  fun metadata h => ⟨metadata, h, .inl rfl⟩

theorem Follows.trans {a b c : Reply} (hab : Follows a b) (hbc : Follows b c) : Follows a c := by
  intro metadata ha
  obtain ⟨mid, hb, hmid⟩ := hab metadata ha
  obtain ⟨last, hc, hlast⟩ := hbc mid hb
  refine ⟨last, hc, ?_⟩
  rcases hmid with rfl | hmid
  · exact hlast
  · rcases hlast with rfl | hlast
    · exact .inr hmid
    · exact .inr (UInt64.lt_trans hmid hlast)

theorem Answered.follows {reply : Reply} (h : Answered crates s call reply disk') :
    Follows (openResult crates s.disk) (openResult crates disk') := by
  rcases h.change with ⟨heq, -⟩ | ⟨published, -, hnew, hfollows, -⟩
  · rw [heq]
    exact .refl _
  · rwa [hnew]

structure Session.Advances (crates : Crates) (s : Session) (call : Call) : Prop where
  intact : ((s.perform crates call).2).Intact crates
  atomic : AtomicCall crates s call
  follows : Follows (Metadata.openResult crates s.disk)
    (Metadata.openResult crates (s.perform crates call).2.disk)

theorem Answered.advances {reply : Reply} (hs : s.Intact crates)
    (h : Answered crates s call reply disk')
    (hp : s.perform crates call = (s.answer faults (reply, disk')).map some id) :
    s.Advances crates call := by
  have hold : openResult crates disk' = openResult crates s.disk ∨
      ∃ published, s.Publishes published call ∧ openResult crates disk' = .ok published := by
    rcases h.change with ⟨heq, -⟩ | ⟨published, hpub, hnew, -⟩
    · exact .inl heq
    · exact .inr ⟨published, hpub, hnew⟩
  have hfollows := h.follows
  rcases reply with (error | _) | metadata
  · -- The call failed: the handle is the one there was.
    have hlive : ∀ metadata, s.live = some metadata → openResult crates disk' = .ok metadata := by
      intro metadata hm
      rcases h.change with ⟨heq, -⟩ | ⟨_, -, -, -, -, hnone⟩
      · rw [heq, hs.live metadata hm]
      · rw [hnone error rfl] at hm
        cases hm
    refine ⟨?_, ⟨?_, ?_, ?_⟩, ?_⟩ <;> rw [hp]
    · exact ⟨h.settled, hlive⟩
    · exact hold
    · rintro metadata ⟨⟩
    · exact fun _ _ => hlive
    · exact hfollows
  · obtain ⟨hsettled, hread⟩ := h.settled.restart faults.garbage
    have hsame : openResult crates (disk'.restart faults.garbage) = openResult crates disk' :=
      openResult_congr hread
    refine ⟨?_, ⟨?_, ?_, ?_⟩, ?_⟩ <;> rw [hp]
    · exact ⟨hsettled, by rintro metadata ⟨⟩⟩
    · rcases hold with heq | ⟨published, hpub, hnew⟩
      · exact .inl (hsame.trans heq)
      · exact .inr ⟨published, hpub, hsame.trans hnew⟩
    · rintro metadata ⟨⟩
    · rintro error ⟨⟩
    · change Follows _ (openResult crates (disk'.restart faults.garbage))
      rwa [hsame]
  · have hnow : openResult crates disk' = .ok metadata := by
      rcases h.change with ⟨heq, hok⟩ | ⟨published, -, hnew, -, hok, -⟩
      · rw [heq, hok metadata rfl]
      · rw [hnew, hok metadata rfl]
    refine ⟨?_, ⟨?_, ?_, ?_⟩, ?_⟩ <;> rw [hp]
    · exact ⟨h.settled, by rintro _ ⟨⟩; exact hnow⟩
    · exact hold
    · rintro _ ⟨⟩
      exact ⟨hnow, rfl⟩
    · rintro error ⟨⟩
    · exact hfollows

theorem orFail_cases {α : Type} {r : Except MetadataError α}
    {result : Except (Interrupt MetadataError) α} (h : (orFail r).exec disk = (result, disk')) :
    disk' = disk ∧ ∀ a, result = .ok a → r = .ok a := by
  cases r with
  | error e =>
    cases h
    exact ⟨rfl, by rintro a ⟨⟩⟩
  | ok a =>
    cases h
    exact ⟨rfl, by rintro _ ⟨⟩; rfl⟩

theorem Answered.unchanged {reply : Reply} (hs : s.Intact crates) (hdisk : disk' = s.disk)
    (hreply : ∀ m, reply ≠ .ok m) : Answered crates s call reply disk' := by
  subst hdisk
  exact ⟨hs.settled, .inl ⟨rfl, fun m hm => absurd hm (hreply m)⟩⟩

theorem Answered.undisturbed {reply : Reply} (hs : s.Intact crates)
    (hu : Undisturbed s.disk.files FileName.metadata (s.disk.names .metadata) disk')
    (hreply : ∀ m, reply ≠ .ok m) : Answered crates s call reply disk' := by
  obtain ⟨hsettled, hread⟩ := Undisturbed.settled hs.settled hu
  exact ⟨hsettled, .inl ⟨openResult_congr hread, fun m hm => absurd hm (hreply m)⟩⟩

theorem openResult_absent (h : disk.names .metadata = none) :
    openResult crates disk = .error (.failed .io) := by
  rw [openResult_eq, FileSystem.read, h]
  rfl

theorem Session.Intact.no_handle (hs : s.Intact crates) (h : s.disk.names .metadata = none) :
    s.live = none := by
  cases hlive : s.live with
  | none => rfl
  | some metadata =>
    have hopen := hs.live metadata hlive
    rw [openResult_absent h] at hopen
    cases hopen

-- A valid new world was published, or what was there is left alone.
theorem create_published (hs : s.Intact crates) (hv : validateMetadata metadata = .ok ())
    {result : Except (Interrupt MetadataError) Unit} {reply : Reply}
    (h : (publishMetadata crates faults temporary metadata true).exec s.disk = (result, disk'))
    (hreply : ∀ m, reply = .ok m → result = .ok () ∧ m = metadata) :
    Answered crates s (.create faults temporary metadata) reply disk' := by
  have henc := encodeWorldMetadata_eq crates (validateMetadata_ok_iff.mp hv) (PayloadOf.put metadata)
  rcases publishMetadata_create henc h with ⟨hnone, hheld⟩ | ⟨hresult, hu⟩
  · refine ⟨hheld.settled.1, .inr ⟨metadata, rfl, hheld.openResult hv henc, ?_,
      fun m hm => (hreply m hm).2, fun _ _ => hs.no_handle hnone⟩⟩
    rw [openResult_absent hnone]
    rintro m ⟨⟩
  · exact .undisturbed hs hu fun m hm => hresult (hreply m hm).1

theorem createWorld_answered (hs : s.Intact crates) {reply : Reply}
    (h : (createWorld crates faults temporary metadata).exec s.disk = (reply, disk')) :
    Answered crates s (.create faults temporary metadata) reply disk' := by
  rcases bind_cases h with ⟨e, hstep, rfl⟩ | ⟨_, d, hstep, hrest⟩
  · exact .unchanged hs (orFail_cases hstep).1 (by simp)
  obtain ⟨hvalid, rfl⟩ := orFail_ok.mp hstep
  rcases bind_cases hrest with ⟨e, hfirst, rfl⟩ | ⟨_, d, hfirst, hrest⟩
  · exact .unchanged hs (orFail_cases hfirst).1 (by simp)
  obtain ⟨-, rfl⟩ := orFail_ok.mp hfirst
  have hdir : Moves (keeps (· = s.disk)) (createRegionsDir faults) :=
    moves_performs fun _ hd => hd
  rcases bind_cases hrest with ⟨e, hmake, rfl⟩ | ⟨_, d, hmake, hrest⟩
  · exact .unchanged hs (hdir.after hmake rfl) (by simp)
  obtain rfl := hdir.after hmake rfl
  have hpublish {d : Disk} (hp : (do
      publishMetadata crates faults temporary metadata true
      pure metadata : DiskStep WorldMetadata).exec s.disk = (reply, d)) :
      Answered crates s (.create faults temporary metadata) reply d := by
    rcases bind_cases hp with ⟨e, hrun, rfl⟩ | ⟨_, t, hrun, hdone⟩
    · exact create_published hs hvalid hrun (by simp)
    · cases hdone
      exact create_published hs hvalid hrun fun m hm => by
        cases hm
        exact ⟨rfl, rfl⟩
  have hlook : Moves (keeps (· = s.disk))
      (pathExists (ε := MetadataError) FileName.metadata faults.probe) := moves_pathExists
  rcases bind_cases hrest with ⟨e, hprobe, rfl⟩ | ⟨found, d, hprobe, hrest⟩
  · exact .unchanged hs (hlook.after hprobe rfl) (by simp)
  obtain rfl := hlook.after hprobe rfl
  cases found with
  | true =>
    cases hrest
    exact .unchanged hs rfl (by simp)
  | false => exact hpublish hrest

theorem nextGeneration_ok {generation next : UInt64} (h : nextGeneration generation = .ok next) :
    generation < next := by
  rw [nextGeneration] at h
  split at h
  · rename_i hlt
    cases h
    rw [UInt64.lt_iff_toNat_lt, UInt64.toNat_add]
    have hone : (1 : UInt64).toNat = 1 := rfl
    rw [hone, Nat.mod_eq_of_lt hlt]
    exact Nat.lt_succ_self _
  · cases h

theorem replacement_ok {self : WorldMetadata} (h : replacement self metadata = .ok published) :
    self.generation < published.generation ∧ validateMetadata published = .ok () := by
  obtain ⟨_, -, hrest⟩ := bind_ok_iff.mp h
  obtain ⟨next, hnext, hrest⟩ := bind_ok_iff.mp hrest
  obtain ⟨_, hvalid, heq⟩ := bind_ok_iff.mp hrest
  cases heq
  exact ⟨nextGeneration_ok hnext, hvalid⟩

theorem replace_follows {self : WorldMetadata} (hs : s.Intact crates) (hlive : s.live = some self)
    (h : replacement self metadata = .ok published) :
    Follows (openResult crates s.disk) (.ok published) := by
  rw [hs.live self hlive]
  rintro m ⟨⟩
  exact ⟨published, rfl, .inr (replacement_ok h).1⟩

theorem replaceMetadata_answered {self : WorldMetadata} (hs : s.Intact crates)
    (hlive : s.live = some self) (hconf : s.Confirms (.replace faults temporary metadata))
    {reply : Reply}
    (h : (replaceMetadata crates faults temporary self metadata).exec s.disk = (reply, disk')) :
    Answered crates s (.replace faults temporary metadata) reply disk' := by
  rcases bind_cases h with ⟨e, hstep, rfl⟩ | ⟨published, d, hstep, hrest⟩
  · exact .unchanged hs (orFail_cases hstep).1 (by simp)
  obtain ⟨hreplace, rfl⟩ := orFail_ok.mp hstep
  have hv := (replacement_ok hreplace).2
  have henc := encodeWorldMetadata_eq crates (validateMetadata_ok_iff.mp hv)
    (PayloadOf.put published)
  have hpublishes : s.Publishes published (.replace faults temporary metadata) :=
    ⟨self, hlive, hreplace⟩
  have hfollows := replace_follows hs hlive hreplace
  rcases bind_cases hrest with ⟨e, hrun, rfl⟩ | ⟨_, t, hrun, hdone⟩
  · rcases publishMetadata_replace henc hrun with ⟨hrenames, hheld, hresult⟩ | ⟨-, -, hu⟩
    · refine ⟨hheld.settled.1, .inr ⟨published, hpublishes, hheld.openResult hv henc, hfollows,
        by simp, fun error herror => ?_⟩⟩
      -- Past the rename only a failing directory sync gives an error.
      cases herror
      have hsync := hconf self published hlive hreplace hrenames
      cases hcase : faults.syncDirectory with
      | fails => exact absurd hcase hsync
      | succeeds | stops =>
        rw [hcase] at hresult
        cases hresult
    · exact .undisturbed hs hu (by simp)
  · cases hdone
    rcases publishMetadata_replace henc hrun with ⟨-, hheld, -⟩ | ⟨-, hresult, -⟩
    · refine ⟨hheld.settled.1, .inr ⟨published, hpublishes, hheld.openResult hv henc, hfollows,
        ?_, by simp⟩⟩
      rintro m ⟨⟩
      rfl
    · exact absurd rfl hresult

theorem openWorld_answered (hs : s.Intact crates) {reply : Reply}
    (h : (openWorld crates faults).exec s.disk = (reply, disk')) :
    Answered crates s (.openWorld faults) reply disk' := by
  obtain ⟨rfl, hok⟩ := openWorld_spec h
  exact ⟨hs.settled, .inl ⟨rfl, hok⟩⟩

theorem Session.Intact.advances (hs : s.Intact crates) (hconf : s.Confirms call) :
    s.Advances crates call := by
  cases call with
  | create faults temporary metadata => exact (createWorld_answered hs rfl).advances hs rfl
  | openWorld faults => exact (openWorld_answered hs rfl).advances hs rfl
  | stop faults =>
    have hanswered : Answered crates s (.stop faults) (.error .stopped) s.disk :=
      .unchanged hs rfl (by simp)
    exact hanswered.advances hs rfl
  | replace faults temporary metadata =>
    cases hlive : s.live with
    | none =>
      have hp : s.perform crates (.replace faults temporary metadata) = (none, s) := by
        rw [perform, hlive]
      refine ⟨?_, ⟨?_, ?_, ?_⟩, ?_⟩ <;> rw [hp]
      · exact hs
      · exact .inl rfl
      · rintro m ⟨⟩
      · rintro error ⟨⟩
      · exact .refl _
    | some self =>
      rcases hrun : (replaceMetadata crates faults temporary self metadata).exec s.disk with ⟨r, d⟩
      have hp : s.perform crates (.replace faults temporary metadata) =
          (s.answer faults (r, d)).map some id := by
        rw [perform, hlive]
        simp only [hrun]
      exact (replaceMetadata_answered hs hlive hconf hrun).advances hs hp

theorem Session.start_intact (crates : Crates) (world : Option Bytes) :
    (Session.start world).Intact crates := by
  cases world with
  | none => exact ⟨⟨by rintro file ⟨⟩⟩, by rintro m ⟨⟩⟩
  | some encoded =>
    refine ⟨⟨fun file hfile => ⟨encoded, ?_⟩⟩, by rintro m ⟨⟩⟩
    cases hfile
    rfl

theorem Session.run_append (s : Session) (before after : List Call) :
    s.run crates (before ++ after) = (s.run crates before).run crates after :=
  List.foldl_append

-- Every call of the list confirms in the session it is made in.
def Session.Confirming (crates : Crates) (s : Session) (calls : List Call) : Prop :=
  ∀ before call after, calls = before ++ call :: after → (s.run crates before).Confirms call

theorem Session.Confirming.head {calls : List Call}
    (h : s.Confirming crates (call :: calls)) : s.Confirms call := h [] call calls rfl

theorem Session.Confirming.tail {calls : List Call} (h : s.Confirming crates (call :: calls)) :
    (s.perform crates call).2.Confirming crates calls := fun before c after heq =>
  h (call :: before) c after (by rw [heq]; rfl)

theorem Session.Confirming.left {before after : List Call}
    (h : s.Confirming crates (before ++ after)) : s.Confirming crates before :=
  fun first call rest heq => h first call (rest ++ after) (by rw [heq]; simp)

theorem Session.Confirming.right {before after : List Call}
    (h : s.Confirming crates (before ++ after)) :
    (s.run crates before).Confirming crates after := fun first call rest heq => by
  rw [← run_append]
  exact h (before ++ first) call rest (by rw [heq]; simp)

theorem Session.Intact.run {calls : List Call} (hs : s.Intact crates)
    (h : s.Confirming crates calls) : (s.run crates calls).Intact crates ∧
      Follows (Metadata.openResult crates s.disk)
        (Metadata.openResult crates (s.run crates calls).disk) := by
  induction calls generalizing s with
  | nil => exact ⟨hs, .refl _⟩
  | cons call calls ih =>
    have hstep := hs.advances h.head
    obtain ⟨hintact, hfollows⟩ := ih hstep.intact h.tail
    exact ⟨hintact, hstep.follows.trans hfollows⟩

-- A replacement whose directory sync fails after the rename leaves the old metadata in the handle.
theorem AtomicCall.confirms (h : AtomicCall crates s call) : s.Confirms call := by
  cases call with
  | create | openWorld | stop => trivial
  | replace faults temporary metadata =>
    intro self published hlive hreplace hrenames hfails
    obtain ⟨hnewer, hv⟩ := replacement_ok hreplace
    have henc := encodeWorldMetadata_eq crates (validateMetadata_ok_iff.mp hv)
      (PayloadOf.put published)
    rcases hrun : (publishMetadata crates faults temporary published false).exec s.disk with ⟨r, d⟩
    rcases publishMetadata_replace henc hrun with ⟨-, hheld, rfl⟩ | ⟨hno, -, -⟩
    · have hexec : (replaceMetadata crates faults temporary self metadata).exec s.disk =
          (.error (.failed .io), d) := by
        rw [hfails] at hrun
        rw [replaceMetadata, exec_bind_ok (orFail_ok.mpr ⟨hreplace, rfl⟩), bind_error hrun]
      have hp : s.perform crates (.replace faults temporary metadata) =
          (some (.error (.failed .io)), ⟨d, some self⟩) := by
        rw [Session.perform, hlive]
        simp only [hexec, Session.answer, hlive]
        rfl
      have hfailed := h.failed .io
      rw [hp] at hfailed
      have hopen := hfailed rfl self rfl
      rw [hheld.openResult hv henc] at hopen
      cases hopen
      exact absurd hnewer (UInt64.lt_irrefl _)
    · exact hno hrenames

theorem publication_atomic_iff (crates : Crates) (world : Option Bytes) (calls : List Call) :
    AtomicRun crates world calls ↔ (Session.start world).Confirming crates calls := by
  constructor
  · intro h before call after heq
    exact (h.atomic before call after heq).confirms
  · intro h
    have hintact := Session.start_intact crates world
    refine ⟨fun before call after heq => ?_, fun before middle after heq => ?_⟩
    · subst heq
      exact ((hintact.run h.left).1.advances h.right.head).atomic
    · subst heq
      have hleft := h.left
      rw [Session.run_append]
      exact ((hintact.run hleft.left).1.run hleft.right).2

end

section

def unsyncedRename : Faults := { Faults.calm with syncDirectory := .fails }

def renamedMetadata (name : String) : WorldMetadata := { freshMetadata with name := name }

def unsyncedCalls : List Call :=
  [.create .calm 1 freshMetadata, .replace unsyncedRename 2 (renamedMetadata "two"),
    .replace .calm 3 (renamedMetadata "three")]

theorem unsyncedCalls_published (n : Nat) (name : String)
    (h : (((Session.start none).run Crates.reference (unsyncedCalls.take n)).disk.read .metadata).map
      Except.ok = some (encodeWorldMetadata Crates.reference
        { renamedMetadata name with generation := 2 }))
    (hv : validateMetadata { renamedMetadata name with generation := 2 } = .ok ()) :
    openResult Crates.reference
      ((Session.start none).run Crates.reference (unsyncedCalls.take n)).disk =
        .ok { renamedMetadata name with generation := 2 } := by
  obtain ⟨encoded, hread, henc⟩ := Option.map_eq_some_iff.mp h
  exact openResult_encoded hv henc.symm hread

set_option maxRecDepth 10000 in
theorem unsynced_replacement_repeats_generation :
    ¬ AtomicRun Crates.reference none unsyncedCalls ∧
      ((Session.start none).run Crates.reference (unsyncedCalls.take 2)).live = some freshMetadata ∧
      openResult Crates.reference
        ((Session.start none).run Crates.reference (unsyncedCalls.take 2)).disk =
          .ok { renamedMetadata "two" with generation := 2 } ∧
      openResult Crates.reference
        ((Session.start none).run Crates.reference (unsyncedCalls.take 3)).disk =
          .ok { renamedMetadata "three" with generation := 2 } := by
  have hold : ((Session.start none).run Crates.reference (unsyncedCalls.take 2)).live =
      some freshMetadata := by decide +kernel
  have htwo := unsyncedCalls_published 2 "two" (by decide +kernel) (by decide +kernel)
  have hthree := unsyncedCalls_published 3 "three" (by decide +kernel) (by decide +kernel)
  refine ⟨fun h => ?_, hold, htwo, hthree⟩
  -- Generation 2 is read twice, with another name the second time.
  obtain ⟨now, hnow, hcase⟩ := h.ordered (unsyncedCalls.take 2) (unsyncedCalls.drop 2) [] rfl _ htwo
  have hrun : unsyncedCalls.take 2 ++ unsyncedCalls.drop 2 = unsyncedCalls.take 3 := rfl
  rw [hrun, hthree] at hnow
  cases hnow
  revert hcase
  decide

end

end Cobblestone.Metadata
