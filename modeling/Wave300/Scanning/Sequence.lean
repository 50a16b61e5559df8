import Wave300.Flow.Control

/-!
# Scanning

`scan.c`, function by function. The vector, the scan request and the callback of its
confirmation are not in the source: what they answer is in `Answers`, together with the answers
of the firmware and of the operating system.
-/

namespace Wave300.Scanning

open Wave300.Flow (Flctrl)

/-- The bands below `MTLK_HW_BAND_BOTH`. -/
inductive Band where
  | ghz24
  | ghz52
  deriving DecidableEq, Repr

/-- The bands below `MTLK_HW_BAND_NONE`: what can be asked for. -/
inductive Selection where
  | one (b : Band)
  | both
  deriving DecidableEq, Repr

inductive Spectrum where
  | mhz20
  | mhz40
  deriving DecidableEq, Repr

inductive Err where
  | scanFailed
  | unknown
  | timeout
  | mac
  | other (code : Nat)
  deriving DecidableEq, Repr

/-- `MTLK_ERR_OK` is `none`. -/
abbrev Res := Option Err

/-- What a chunk changes: the flow control object, the progress in the vector, and what the
firmware was asked. -/
structure Air where
  flctrl : Flctrl
  chOffset : Nat
  /-- The last power-save request that was sent. -/
  ps : Option Bool
  /-- A scan request was sent and is not confirmed. -/
  requested : Bool
  /-- The scans that sent the requests. -/
  requests : List Nat
  deriving DecidableEq, Repr

/-- What a completion finds: the value of `is_running` it replaces, whether the scan's client of
the flow control is stopped, the last power-save request, and the program models. -/
structure Report where
  oldVal : Bool
  stopped : Bool
  ps : Option Bool
  progmodels : Band → Option Spectrum

/-- `struct mtlk_scan`, with what was scheduled for it. `started` and `reports` record the scans
that set `is_running` and the completions. -/
structure Scan where
  isAp : Bool
  rescan : Bool
  essid : String
  pauseBetweenChunks : Nat
  isBackground : Bool
  /-- `mtlk_scan_vector_get_used` -/
  used : Nat
  spectrum : Spectrum
  origBand : Selection
  curBand : Band
  nextBand : Option Band
  completed : Bool
  isRunning : Bool
  treminateScan : Bool
  isSynchronous : Bool
  mustLoadProgmodels : Bool
  isCfmTimeout : Bool
  /-- The pause timer is set. -/
  pauseTimer : Bool
  /-- The task of the pause timer waits. -/
  task : Bool
  flctrlId : BitVec 32
  progmodels : Band → Option Spectrum
  abilitiesActive : Bool
  air : Air
  started : Nat
  reports : List Report

/-- The answer to a power-save request: no slot or not sent, or sent, with the result. -/
inductive PsReply where
  | unsent (err : Err)
  | sent (res : Res)
  deriving DecidableEq, Repr

/-- What the calls out of the module answer in one of its steps. -/
structure Answers where
  /-- `mtlk_core_is_stopping` -/
  isStopping : Bool
  /-- `PARAM_DB_CORE_FREQ_BAND_CUR` -/
  workingBand : Band
  /-- `PARAM_DB_CORE_PROG_MODEL_SPECTRUM_MODE` -/
  workingSpectrum : Spectrum
  /-- `mtlk_progmodel_create` -/
  create : Band → Bool
  /-- `mtlk_progmodel_load_from_os` -/
  loadFromOs : Band → Bool
  /-- `mtlk_prepare_scan_vector`, with the length of the vector. -/
  prepare : Band → Option Nat
  /-- `send_ps_req` before a chunk -/
  psOn : PsReply
  /-- `load_and_configure_progmodel` -/
  configure : Res
  /-- `mtlk_scan_send_scan_req`, with the channels done after it. -/
  send : Except Err Nat
  /-- `send_ps_req` after an error -/
  psOffError : PsReply
  /-- `switch_back_progmodel` -/
  switchBack : Res
  /-- `send_ps_req` after a chunk -/
  psOff : PsReply

def Scan.stopped (s : Scan) : Bool := s.air.flctrl.stopRequestsMask &&& s.flctrlId != 0

/-- `send_ps_req` -/
def Air.sendPsReq (air : Air) (enabled : Bool) : PsReply → Air × Res
  | .unsent err => (air, some err)
  | .sent res => ({ air with ps := some enabled }, res)

def Air.startData (air : Air) (id : BitVec 32) : Air :=
  { air with flctrl := air.flctrl.startData id }

def Air.stopData (air : Air) (id : BitVec 32) : Air :=
  { air with flctrl := air.flctrl.stopData id }

/-- The labels `err_scan` and `err_progmodel` of `scan_next_chunk`. -/
def Air.giveBack (air : Air) (s : Scan) (a : Answers) : Air :=
  let air := if s.isBackground then (air.sendPsReq false a.psOffError).1 else air
  air.startData s.flctrlId

/-- What `scan_next_chunk` makes of `air`. -/
def Scan.chunk (s : Scan) (a : Answers) : Air × Res :=
  let air := s.air.stopData s.flctrlId
  match if s.isBackground then air.sendPsReq true a.psOn else (air, none) with
  | (air, some err) => (air.startData s.flctrlId, some err)
  | (air, none) =>
    match if s.mustLoadProgmodels then a.configure else none with
    | some err => (air.giveBack s a, some err)
    | none =>
      match a.send with
      | .error err => (air.giveBack s a, some err)
      | .ok offset =>
        ({ air with
            chOffset := offset
            requested := true
            requests := air.requests ++ [s.started] }, none)

/-- `scan_next_chunk` -/
def scanNextChunk (a : Answers) (s : Scan) : Scan × Res :=
  ({ s with air := (s.chunk a).1 }, (s.chunk a).2)

/-- `delete_progmodels` -/
def deleteProgmodels (s : Scan) : Scan := { s with progmodels := fun _ => none }

/-- `complete_or_continue` when `next_band` is `MTLK_HW_BAND_NONE`. -/
def complete (s : Scan) : Scan :=
  let s := if s.mustLoadProgmodels then deleteProgmodels s else s
  { s with
    isRunning := false
    essid := if s.isAp then s.essid else ""
    completed := true
    abilitiesActive := false
    reports := s.reports ++ [⟨s.isRunning, s.stopped, s.air.ps, s.progmodels⟩] }

/-- `scan_complete` -/
def scanComplete (s : Scan) : Scan := complete { s with nextBand := none }

/-- `scan_current_band`, with the `complete_or_continue` of its error path. -/
def scanBand (orElse : Scan → Scan) (a : Answers) (s : Scan) : Scan × Res :=
  match a.prepare s.curBand with
  | none | some 0 => (orElse s, some .scanFailed)
  | some (n + 1) =>
    let s := { s with used := n + 1, air := { s.air with chOffset := 0 } }
    match scanNextChunk a s with
    | (s, none) => (s, none)
    | (s, some err) => (scanComplete s, some err)

/-- `scan_next_band`: no band is left behind it. -/
def scanNextBand (a : Answers) (next : Band) (s : Scan) : Scan × Res :=
  scanBand complete a { s with curBand := next, nextBand := none }

/-- `complete_or_continue` -/
def completeOrContinue (a : Answers) (s : Scan) : Scan × Res :=
  match s.nextBand with
  | none => (complete s, none)
  | some next => scanNextBand a next s

/-- `scan_current_band` -/
def scanCurrentBand (a : Answers) (s : Scan) : Scan × Res :=
  scanBand (fun s => (completeOrContinue a s).1) a s

/-- `setup_scan_sequence` -/
def setupScanSequence (s : Scan) : Scan :=
  match s.origBand with
  | .both => { s with curBand := .ghz52, nextBand := some .ghz24 }
  | .one b => { s with curBand := b, nextBand := none }

/-- The spectrum `preload_progmodels` takes for a band. -/
def Scan.spectrumOf (s : Scan) (a : Answers) (b : Band) : Spectrum :=
  if s.isBackground ∧ b = a.workingBand then a.workingSpectrum else s.spectrum

/-- `mtlk_progmodel_create`, kept at the band. -/
def createProgmodel (a : Answers) (b : Band) (s : Scan) : Scan :=
  { s with
    progmodels := fun c => if c = b then (if a.create b then some (s.spectrumOf a b) else none)
      else s.progmodels c }

/-- The last loop of `preload_progmodels`. -/
def Scan.loads (s : Scan) (a : Answers) : Bool :=
  [Band.ghz24, .ghz52].all fun b => (s.progmodels b).isNone || a.loadFromOs b

/-- `preload_progmodels` -/
def preloadProgmodels (a : Answers) (s : Scan) : Scan × Res :=
  let s := createProgmodel a s.curBand s
  if ¬ a.create s.curBand then (deleteProgmodels s, some .scanFailed)
  else match s.nextBand with
    | none =>
      if s.loads a then (s, none) else (deleteProgmodels s, some .scanFailed)
    | some next =>
      let s := createProgmodel a next s
      if a.create next ∧ s.loads a then (s, none) else (deleteProgmodels s, some .scanFailed)

/-- `mtlk_osal_atomic_xchg (&is_running, TRUE)`, when the old value is `FALSE`. -/
def raise (s : Scan) : Scan := { s with isRunning := true, started := s.started + 1 }

/-- `mtlk_osal_atomic_set (&treminate_scan, FALSE)` -/
def clearTerminate (s : Scan) : Scan := { s with treminateScan := false }

/-- `is_synchronous`, and the reset of the event `completed`. -/
def resetCompleted (isSync : Bool) (s : Scan) : Scan :=
  { s with isSynchronous := isSync, completed := false }

/-- What a call of `do_scan` is asked for. -/
structure Request where
  band : Selection
  spectrum : Spectrum
  essid : Option String
  isSync : Bool
  deriving DecidableEq, Repr

/-- The rest of `do_scan`: the scan context changes only here. -/
def startScan (r : Request) (a : Answers) (s : Scan) : Scan × Res :=
  let s := { s with
    abilitiesActive := true
    essid := r.essid.getD s.essid
    spectrum := r.spectrum
    origBand := r.band }
  let s := setupScanSequence s
  match if s.mustLoadProgmodels then preloadProgmodels a s else (s, none) with
  | (s, some err) => (scanComplete s, some err)
  | (s, none) => scanCurrentBand a s

/-- `do_scan` -/
def doScan (r : Request) (a : Answers) (s : Scan) : Scan × Res :=
  if a.isStopping ∨ s.isRunning then (s, some .scanFailed)
  else startScan r a (resetCompleted r.isSync (clearTerminate (raise s)))

/-- `mtlk_scan_async` -/
def mtlkScanAsync (band : Selection) (essid : Option String) (a : Answers) (s : Scan) :
    Scan × Res :=
  doScan ⟨band, .mhz20, essid, false⟩ a s

/-- The call of `do_scan` in `mtlk_scan_sync`. Its loop calls `handleScanConfirmed`. -/
def mtlkScanSync (band : Band) (spectrum : Spectrum) (a : Answers) (s : Scan) : Scan × Res :=
  doScan ⟨.one band, spectrum, none, true⟩ a s

/-- `_mtlk_scan_handle_evt_pause_elapsed` -/
def handlePauseElapsed (a : Answers) (s : Scan) : Scan :=
  if s.treminateScan then scanComplete s
  else if s.rescan then (scanCurrentBand a (setupScanSequence { s with rescan := false })).1
  else if s.air.chOffset < s.used then
    -- `scan_remaining_channels`
    match scanNextChunk a s with
    | (s, none) => s
    | (s, some _) => scanComplete s
  else (completeOrContinue a s).1

/-- What `mtlk_scan_handle_evt_scan_confirmed` gives back before it looks at the outcome, and
whether that failed. -/
def restoreAir (a : Answers) (s : Scan) : Scan × Res :=
  let switched := if s.isBackground ∧ s.mustLoadProgmodels then a.switchBack else none
  let (air, ps) := if s.isBackground then s.air.sendPsReq false a.psOff else (s.air, none)
  ({ s with air := air.startData s.flctrlId }, switched.or ps)

/-- `mtlk_scan_handle_evt_scan_confirmed`, with whether the status is `UMI_OK`. -/
def handleScanConfirmed (ok : Bool) (a : Answers) (s : Scan) : Scan :=
  if s.isCfmTimeout then scanComplete s
  else
    let (s, error) := restoreAir a s
    if s.treminateScan then scanComplete s
    else if error.isSome then scanComplete s
    else if ¬ ok then scanComplete s
    else if s.isBackground ∧ s.pauseBetweenChunks ≠ 0 then { s with pauseTimer := true }
    else handlePauseElapsed a s

/-- `scan_terminate`, which `scan_terminate_and_wait_completion` begins with. -/
def scanTerminate (s : Scan) : Scan :=
  if s.isRunning then { s with treminateScan := true } else s

/-- `mtlk_scan_set_load_progmodel_policy` -/
def setLoadProgmodelPolicy (mustLoad : Bool) (s : Scan) : Scan :=
  if s.isRunning then s else { s with mustLoadProgmodels := mustLoad }

end Wave300.Scanning
