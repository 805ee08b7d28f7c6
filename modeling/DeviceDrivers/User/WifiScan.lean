import DeviceDrivers.Lib.CallProg
import DeviceDrivers.Lib.Netlink
import DeviceDrivers.User.Process

/-!
# Scanning for Wi-Fi networks

`Wifi-userSpace.c`. `main` asks for a scan and prints what `handle_wifi_scan` has
stored for the messages that come back.

This file proves the following.
* The handler reads only in the attributes exactly when the field `signal_mbm` lies in
  the information elements and a NUL in the BSSID (`reads_inside_iff`). Both are up to
  the sender (`reads_outside`).
* After any messages the result is that of the last message in which the handler has
  found a signal, as a whole (`deliver_of_survives`, `run_of_lastShown`). The signal may
  come from behind the information elements.
* It shows the BSSID as the name. The last BSS is printed exactly when that string is
  its network name, and that signal its own (`printsLast_iff`).
* Without any signal the memory is printed that the result had before
  (`run_of_nothing_shown`, `prints_other`).
-/

namespace DeviceDrivers.User.WifiScan

/-! ## Source -/

def NL80211_CMD_TRIGGER_SCAN : Nat := 33
def NL80211_ATTR_IFINDEX : Nat := 3
def NL80211_ATTR_BSS : Nat := 47
def NL80211_BSS_BSSID : Nat := 1
def NL80211_BSS_INFORMATION_ELEMENTS : Nat := 6
def NL_AUTO_PID : Nat := 0
def NL_AUTO_SEQ : Nat := 0
def NL_SKIP : Int := 1
def NL_STOP : Int := 2
def EXIT_SUCCESS : Int := 0
def EXIT_FAILURE : Int := 1

/-- What comes from libnl and from the headers of nl80211: the parser, the largest
attribute types, and where `signal_mbm`, an `int`, lies in a `struct nl80211_bss_info`. -/
structure Libnl extends NlaParser where
  attrMax : Nat
  bssMax : Nat
  signalMbm : Nat

structure WifiScanResult where
  ssid : List Byte
  length_ssid : ssid.length = 32
  signalStrength : BitVec 32

inductive ScanCall
  | nlSocketAlloc
  | genlConnect (nlsock : Nat)
  | genlCtrlAllocCache (nlsock : Nat)
  | nlmsgAlloc
  | genlmsgPut (msg port seq family hdrlen flags cmd version : Nat)
  | ifNametoindex (ifname : String)
  | nlaPutU32 (msg attrtype value : Nat)
  | nlSendAutoComplete (nlsock msg : Nat)
  | nlRecvmsgs (nlsock : Nat)
  | nlmsgFree (msg : Nat)
  | nlSocketFree (nlsock : Nat)
  | eprint (msg : String)
  | printf (args : List Arg)
  | loadInt (msg : NlMsg) (attr : NlAttr) (off : Nat)
  | loadStr (msg : NlMsg) (attr : NlAttr)

/-- Pointers are numbers, and NULL is 0. -/
@[reducible] def ScanCall.Res : ScanCall → Type
  | nlSocketAlloc | nlmsgAlloc | ifNametoindex _ => Nat
  | genlConnect _ | nlSendAutoComplete .. => Int
  | genlCtrlAllocCache _ => Int × Nat
  | nlRecvmsgs _ => Int × List NlMsg
  | loadInt .. => BitVec 32
  | loadStr .. => List Byte
  | _ => Unit

abbrev ScanProg : Type → Type := Prog ScanCall ScanCall.Res

@[simp] def nlSocketAlloc : ScanProg Nat := .call .nlSocketAlloc .ret
@[simp] def genlConnect (nlsock : Nat) : ScanProg Int := .call (.genlConnect nlsock) .ret
@[simp] def genlCtrlAllocCache (nlsock : Nat) : ScanProg (Int × Nat) :=
  .call (.genlCtrlAllocCache nlsock) .ret
@[simp] def nlmsgAlloc : ScanProg Nat := .call .nlmsgAlloc .ret
@[simp] def genlmsgPut (msg port seq family hdrlen flags cmd version : Nat) : ScanProg Unit :=
  .call (.genlmsgPut msg port seq family hdrlen flags cmd version) .ret
@[simp] def ifNametoindex (ifname : String) : ScanProg Nat := .call (.ifNametoindex ifname) .ret
@[simp] def nlaPutU32 (msg attrtype value : Nat) : ScanProg Unit :=
  .call (.nlaPutU32 msg attrtype value) .ret
@[simp] def nlSendAutoComplete (nlsock msg : Nat) : ScanProg Int :=
  .call (.nlSendAutoComplete nlsock msg) .ret
@[simp] def nlRecvmsgs (nlsock : Nat) : ScanProg (Int × List NlMsg) :=
  .call (.nlRecvmsgs nlsock) .ret
@[simp] def nlmsgFree (msg : Nat) : ScanProg Unit := .call (.nlmsgFree msg) .ret
@[simp] def nlSocketFree (nlsock : Nat) : ScanProg Unit := .call (.nlSocketFree nlsock) .ret
@[simp] def eprint (msg : String) : ScanProg Unit := .call (.eprint msg) .ret
@[simp] def printf (args : List Arg) : ScanProg Unit := .call (.printf args) .ret
@[simp] def loadInt (msg : NlMsg) (attr : NlAttr) (off : Nat) : ScanProg (BitVec 32) :=
  .call (.loadInt msg attr off) .ret
@[simp] def loadStr (msg : NlMsg) (attr : NlAttr) : ScanProg (List Byte) :=
  .call (.loadStr msg attr) .ret

/-- `snprintf(result->ssid, sizeof(result->ssid), "%s", text)` -/
def WifiScanResult.setSsid (r : WifiScanResult) (text : List Byte) : WifiScanResult :=
  { r with
    ssid := storeString r.ssid text
    length_ssid := (length_storeString r.ssid text).trans r.length_ssid }

/-- What is done for a BSS with a BSSID and information elements. -/
def storeBss (lib : Libnl) (msg : NlMsg) (bssid ies : NlAttr) (result : WifiScanResult) :
    ScanProg WifiScanResult := do
  if (← loadInt msg ies lib.signalMbm) ≠ 0#32 then
    let result := result.setSsid (← loadStr msg bssid)
    let signalMbm ← loadInt msg ies lib.signalMbm
    return { result with signalStrength := signalMbm.sdiv 100 }
  else
    return result

/-- The attributes of `msg` start behind its headers. -/
def handleWifiScan (lib : Libnl) (msg : NlMsg) (result : WifiScanResult) :
    ScanProg (Int × WifiScanResult) := do
  let tb := lib.parse lib.attrMax msg.mem 0 msg.len
  match tb NL80211_ATTR_BSS with
  | some nest =>
    let bss := lib.parse lib.bssMax msg.mem nest.off nest.len
    match bss NL80211_BSS_BSSID, bss NL80211_BSS_INFORMATION_ELEMENTS with
    | some bssid, some ies =>
      let result ← storeBss lib msg bssid ies result
      return (NL_SKIP, result)
    | _, _ => return (NL_SKIP, result)
  | none => return (NL_SKIP, result)

/-- `nl_recvmsgs` hands the messages to the callback, in order, until it says stop. -/
def deliver (lib : Libnl) : List NlMsg → WifiScanResult → ScanProg WifiScanResult
  | [], result => return result
  | msg :: msgs, result => do
    let (action, result) ← handleWifiScan lib msg result
    if action = NL_STOP then
      return result
    else
      deliver lib msgs result

/-- The memory from the result on, with `after` behind it. -/
def WifiScanResult.memory (r : WifiScanResult) (after : List Byte) : List Byte :=
  r.ssid ++ le32 r.signalStrength ++ after

/-- `scanResult` is not set before the messages come. `after` can be read behind it. -/
def main (lib : Libnl) (scanResult : WifiScanResult) (after : List Byte) : ScanProg Int := do
  let nlsock ← nlSocketAlloc
  if nlsock = 0 then
    eprint "Error: Failed to allocate netlink socket\n"
    return EXIT_FAILURE
  else
  let ret ← genlConnect nlsock
  if ret < 0 then
    eprint "Error: Failed to connect to generic netlink\n"
    nlSocketFree nlsock
    return EXIT_FAILURE
  else
  let (ret, nlsock) ← genlCtrlAllocCache nlsock
  if ret < 0 then
    eprint "Error: Failed to allocate generic netlink cache\n"
    nlSocketFree nlsock
    return EXIT_FAILURE
  else
  let msg ← nlmsgAlloc
  if msg = 0 then
    eprint "Error: Failed to allocate netlink message\n"
    nlSocketFree nlsock
    return EXIT_FAILURE
  else
  genlmsgPut msg NL_AUTO_PID NL_AUTO_SEQ nlsock 0 0 NL80211_CMD_TRIGGER_SCAN 0
  nlaPutU32 msg NL80211_ATTR_IFINDEX (← ifNametoindex "wlan0")
  let ret ← nlSendAutoComplete nlsock msg
  if ret < 0 then
    eprint "Error: Failed to send netlink message\n"
    nlmsgFree msg
    nlSocketFree nlsock
    return EXIT_FAILURE
  else
  let (ret, msgs) ← nlRecvmsgs nlsock
  let scanResult ← deliver lib msgs scanResult
  if ret < 0 then
    eprint "Error: Failed to receive netlink messages\n"
    nlmsgFree msg
    nlSocketFree nlsock
    return EXIT_FAILURE
  else
  printf [.text "Wi-Fi scan result:\n"]
  printf [.text "SSID: ", .str (scanResult.memory after), .text "\n"]
  printf [.text "Signal Strength: ", .dec scanResult.signalStrength.toInt, .text " dBm\n"]
  nlmsgFree msg
  nlSocketFree nlsock
  return EXIT_SUCCESS

/-! ## What the calls do -/

/-- What the calls of `main` answer, and the messages that come. -/
structure ScanOutcomes where
  nlsock : Nat
  connected : Int
  cache : Int × Nat
  msg : Nat
  ifindex : Nat
  sent : Int
  received : Int
  delivered : List NlMsg

/-- The calls before the printing work. -/
structure ScanOutcomes.Works (o : ScanOutcomes) : Prop where
  nlsock : o.nlsock ≠ 0
  connected : 0 ≤ o.connected
  cache : 0 ≤ o.cache.1
  msg : o.msg ≠ 0
  sent : 0 ≤ o.sent
  received : 0 ≤ o.received

/-- A read of `n` bytes at `off` in the payload of `attr`. -/
structure Read where
  attr : NlAttr
  off : Nat
  n : Nat
deriving DecidableEq

structure ScanState where
  reads : List Read
  console : Console

def ScanState.start : ScanState := ⟨[], .start⟩

@[simp] def ScanState.log (s : ScanState) (r : Read) : ScanState :=
  { s with reads := r :: s.reads }

def intAt (mem : List Byte) (off : Nat) : BitVec 32 :=
  ofLe32 (byteAt mem off) (byteAt mem (off + 1)) (byteAt mem (off + 2)) (byteAt mem (off + 3))

def scancall (o : ScanOutcomes) : (c : ScanCall) → ScanState → Except Fault c.Res × ScanState
  | .nlSocketAlloc, s => (.ok o.nlsock, s)
  | .genlConnect _, s => (.ok o.connected, s)
  | .genlCtrlAllocCache _, s => (.ok o.cache, s)
  | .nlmsgAlloc, s => (.ok o.msg, s)
  | .ifNametoindex _, s => (.ok o.ifindex, s)
  | .nlSendAutoComplete .., s => (.ok o.sent, s)
  | .nlRecvmsgs _, s => (.ok (o.received, o.delivered), s)
  | .genlmsgPut .., s | .nlaPutU32 .., s | .nlmsgFree _, s | .nlSocketFree _, s => (.ok (), s)
  | .eprint msg, s => (.ok (), { s with console := s.console.eprint msg })
  | .printf args, s =>
    let (r, console) := s.console.printf args
    (r, { s with console })
  | .loadInt msg attr off, s =>
    if attr.off + off + 4 ≤ msg.mem.length then
      (.ok (intAt msg.mem (attr.off + off)), s.log ⟨attr, off, 4⟩)
    else (.error .unmapped, s.log ⟨attr, off, 4⟩)
  | .loadStr msg attr, s =>
    let mem := msg.mem.drop attr.off
    match cString mem with
    | some bs => (.ok bs, s.log ⟨attr, 0, scanned mem⟩)
    | none => (.error .unmapped, s.log ⟨attr, 0, scanned mem⟩)

/-! ## The BSS of a message -/

section

variable (lib : Libnl) (msg : NlMsg)

/-- The BSSID and the information elements in a message with both. -/
def carried : Option (NlAttr × NlAttr) := do
  let nest ← lib.parse lib.attrMax msg.mem 0 msg.len NL80211_ATTR_BSS
  let bssid ← lib.parse lib.bssMax msg.mem nest.off nest.len NL80211_BSS_BSSID
  let ies ← lib.parse lib.bssMax msg.mem nest.off nest.len NL80211_BSS_INFORMATION_ELEMENTS
  return (bssid, ies)

/-- A BSS as a message has it: the information elements, and the signal in them. -/
structure Bss where
  ies : List Byte
  signal : BitVec 32
deriving DecidableEq

/-- The BSS of a message that has a BSSID, and information elements with a signal other
than 0. -/
def bssOf : Option Bss := do
  let (_, ies) ← carried lib msg
  guard (lib.signalMbm + 4 ≤ ies.len)
  let signal := intAt (ies.payload msg.mem) lib.signalMbm
  guard (signal ≠ 0#32)
  return ⟨ies.payload msg.mem, signal⟩

/-- What the handler loads as `signal_mbm`: it does not ask whether the information
elements reach that far. -/
def signalOf (ies : NlAttr) : BitVec 32 := intAt msg.mem (ies.off + lib.signalMbm)

/-- What the handler shows for a BSS: the string in memory at the BSSID, and the
signal. -/
structure Shown where
  text : List Byte
  signal : BitVec 32
deriving DecidableEq

def shownAt (bssid ies : NlAttr) : Shown :=
  ⟨cut (msg.mem.drop bssid.off), signalOf lib msg ies⟩

/-- What the handler shows for a message, if anything. -/
def shownOf : Option Shown := do
  let (bssid, ies) ← carried lib msg
  guard (signalOf lib msg ies ≠ 0#32)
  return shownAt lib msg bssid ies

/-- All that the handler reads of `msg` can be read: the field, and a string. -/
def Survives : Prop := ∀ bssid ies, carried lib msg = some (bssid, ies) →
  ies.off + lib.signalMbm + 4 ≤ msg.mem.length ∧
    (signalOf lib msg ies ≠ 0#32 → NUL ∈ msg.mem.drop bssid.off)

end

/-- The BSS of the most recent message that has one. -/
def lastBss (lib : Libnl) (msgs : List NlMsg) : Option Bss := (msgs.filterMap (bssOf lib)).getLast?

/-- What the handler shows in the end. -/
def lastShown (lib : Libnl) (msgs : List NlMsg) : Option Shown :=
  (msgs.filterMap (shownOf lib)).getLast?

def Shown.store (v : Shown) (r : WifiScanResult) : WifiScanResult :=
  { r.setSsid v.text with signalStrength := v.signal.sdiv 100 }

/-- The result after one message. -/
def stored (lib : Libnl) (msg : NlMsg) (r : WifiScanResult) : WifiScanResult :=
  ((shownOf lib msg).map (·.store r)).getD r

theorem carried_inside {lib : Libnl} {msg : NlMsg} {bssid ies : NlAttr}
    (h : carried lib msg = some (bssid, ies)) :
    bssid.Inside 0 msg.len ∧ ies.Inside 0 msg.len := by
  unfold carried at h
  simp only [Option.bind_eq_bind, Option.bind_eq_some_iff, Option.pure_def, Option.some.injEq,
    Prod.mk.injEq] at h
  obtain ⟨nest, hnest, a, ha, b, hb, rfl, rfl⟩ := h
  exact ⟨(lib.inside ha).trans (lib.inside hnest), (lib.inside hb).trans (lib.inside hnest)⟩

/-- The three tests of the handler. -/
theorem handleWifiScan_eq (lib : Libnl) (msg : NlMsg) (r : WifiScanResult) :
    handleWifiScan lib msg r =
      match carried lib msg with
      | some (bssid, ies) => do
        let r ← storeBss lib msg bssid ies r
        return (NL_SKIP, r)
      | none => return (NL_SKIP, r) := by
  unfold handleWifiScan carried
  cases hnest : lib.parse lib.attrMax msg.mem 0 msg.len NL80211_ATTR_BSS with
  | none => simp only [hnest, Option.bind_eq_bind, Option.bind_none]
  | some nest =>
    simp only [hnest, Option.bind_eq_bind, Option.bind_some]
    cases lib.parse lib.bssMax msg.mem nest.off nest.len NL80211_BSS_BSSID with
    | none => rfl
    | some bssid =>
      cases lib.parse lib.bssMax msg.mem nest.off nest.len NL80211_BSS_INFORMATION_ELEMENTS with
      | none => rfl
      | some ies => rfl

/-! ## What one message does -/

section

variable (lib : Libnl) (msg : NlMsg) (bssid ies : NlAttr)

/-- The read of `signal_mbm`. -/
def fieldRead : Read := ⟨ies, lib.signalMbm, 4⟩

/-- The read of the string at the BSSID. -/
def textRead : Read := ⟨bssid, 0, scanned (msg.mem.drop bssid.off)⟩

/-- The field is read, and when it is not 0 the string, and the field again. A read
outside the memory is the last. -/
theorem execE_storeBss (r : WifiScanResult) (o : ScanOutcomes) (s : ScanState) :
    (storeBss lib msg bssid ies r).execE (scancall o) s =
      if ies.off + lib.signalMbm + 4 ≤ msg.mem.length then
        if signalOf lib msg ies = 0#32 then (.ok r, s.log (fieldRead lib ies))
        else if NUL ∈ msg.mem.drop bssid.off then
          (.ok ((shownAt lib msg bssid ies).store r),
            ((s.log (fieldRead lib ies)).log (textRead msg bssid)).log (fieldRead lib ies))
        else (.error .unmapped, (s.log (fieldRead lib ies)).log (textRead msg bssid))
      else (.error .unmapped, s.log (fieldRead lib ies)) := by
  by_cases hfield : ies.off + lib.signalMbm + 4 ≤ msg.mem.length
  · have hload : ∀ s, scancall o (.loadInt msg ies lib.signalMbm) s =
        (.ok (signalOf lib msg ies), s.log (fieldRead lib ies)) := fun s => if_pos hfield
    rw [if_pos hfield]
    by_cases hsignal : signalOf lib msg ies = 0#32
    · rw [if_pos hsignal]
      simp [storeBss, Prog.execE, hload, hsignal]
    · rw [if_neg hsignal]
      by_cases hnul : NUL ∈ msg.mem.drop bssid.off
      · have htext : ∀ s, scancall o (.loadStr msg bssid) s =
            (.ok (cut (msg.mem.drop bssid.off)), s.log (textRead msg bssid)) := by
          intro s
          simp only [scancall, cString_of_mem hnul, textRead]
        rw [if_pos hnul]
        simp [storeBss, Prog.execE, hload, hsignal, htext, Shown.store, shownAt]
      · have htext : ∀ s, scancall o (.loadStr msg bssid) s =
            (.error .unmapped, s.log (textRead msg bssid)) := by
          intro s
          simp only [scancall, cString_of_not_mem hnul, textRead]
        rw [if_neg hnul]
        simp [storeBss, Prog.execE, hload, hsignal, htext]
  · have hload : ∀ s, scancall o (.loadInt msg ies lib.signalMbm) s =
        (.error .unmapped, s.log (fieldRead lib ies)) := fun s => if_neg hfield
    rw [if_neg hfield]
    exact Prog.execE_call_error (scancall o) (hload s) _

end

theorem execE_handle_of_some {lib : Libnl} {msg : NlMsg} {bssid ies : NlAttr}
    (h : carried lib msg = some (bssid, ies)) (r : WifiScanResult) (o : ScanOutcomes)
    (s : ScanState) :
    (handleWifiScan lib msg r).execE (scancall o) s =
      match (storeBss lib msg bssid ies r).execE (scancall o) s with
      | (.ok r', s') => (.ok (NL_SKIP, r'), s')
      | (.error e, s') => (.error e, s') := by
  rw [handleWifiScan_eq, h]
  refine (Prog.execE_bind (scancall o) (storeBss lib msg bssid ies r) _ s).trans ?_
  rcases (storeBss lib msg bssid ies r).execE (scancall o) s with ⟨_ | r', s'⟩
  · rfl
  · rfl

/-! ## The reads of the handler -/

/-- The read stays in the payload of its attribute. -/
def Read.Inside (rd : Read) : Prop := rd.off + rd.n ≤ rd.attr.len

def handled (lib : Libnl) (o : ScanOutcomes) (msg : NlMsg) (r : WifiScanResult) :
    Except Fault (Int × WifiScanResult) × ScanState :=
  (handleWifiScan lib msg r).execE (scancall o) .start

/-- All reads stay in their attributes, and the stored string has its NUL in the 32
bytes. -/
def HandlerSafe (lib : Libnl) (o : ScanOutcomes) (msg : NlMsg) (r : WifiScanResult) : Prop :=
  (∀ rd ∈ (handled lib o msg r).2.reads, rd.Inside) ∧
    ∀ action r', (handled lib o msg r).1 = .ok (action, r') → r'.ssid = r.ssid ∨ NUL ∈ r'.ssid

theorem textRead_inside_iff {msg : NlMsg} {bssid : NlAttr} (h : bssid.Inside 0 msg.len) :
    (textRead msg bssid).Inside ↔ NUL ∈ bssid.payload msg.mem := by
  have hfits : bssid.len ≤ (msg.mem.drop bssid.off).length := by
    rw [List.length_drop]
    have hlen := msg.fits
    have hend := h.2
    omega
  show 0 + scanned (msg.mem.drop bssid.off) ≤ bssid.len ↔ _
  rw [Nat.zero_add, scanned_le_iff hfits]
  rfl

/-- A field in the payload is in memory. -/
theorem mapped_of_inside {lib : Libnl} {msg : NlMsg} {ies : NlAttr} (h : ies.Inside 0 msg.len)
    (hfield : (fieldRead lib ies).Inside) : ies.off + lib.signalMbm + 4 ≤ msg.mem.length := by
  have hlen := msg.fits
  have hend := h.2
  have hin : lib.signalMbm + 4 ≤ ies.len := hfield
  omega

theorem NUL_mem_store (v : Shown) (r : WifiScanResult) : NUL ∈ (v.store r).ssid :=
  NUL_mem_storeString (show 0 < r.ssid.length by rw [r.length_ssid]; decide) v.text

/-- The reads stay in the payloads exactly when the field does, and the BSSID, which
is read only for a signal other than 0, has a NUL. -/
theorem reads_inside_iff {lib : Libnl} {msg : NlMsg} {bssid ies : NlAttr}
    (h : carried lib msg = some (bssid, ies)) (r : WifiScanResult) (o : ScanOutcomes) :
    HandlerSafe lib o msg r ↔
      lib.signalMbm + 4 ≤ ies.len ∧
        (signalOf lib msg ies = 0#32 ∨ NUL ∈ bssid.payload msg.mem) := by
  obtain ⟨hbssid, hies⟩ := carried_inside h
  have hfield : (fieldRead lib ies).Inside ↔ lib.signalMbm + 4 ≤ ies.len := Iff.rfl
  have htext := textRead_inside_iff hbssid
  unfold HandlerSafe handled
  rw [execE_handle_of_some h, execE_storeBss, ← hfield, ← htext]
  by_cases hmapped : ies.off + lib.signalMbm + 4 ≤ msg.mem.length
  · rw [if_pos hmapped]
    by_cases hsignal : signalOf lib msg ies = 0#32
    · simp [hsignal, ScanState.start]
    · rw [if_neg hsignal]
      by_cases hnul : NUL ∈ msg.mem.drop bssid.off
      · have hstored := NUL_mem_store (shownAt lib msg bssid ies) r
        rw [if_pos hnul]
        constructor
        · rintro ⟨hreads, -⟩
          exact ⟨hreads _ (by simp), .inr (hreads _ (by simp))⟩
        · rintro ⟨hin, hend⟩
          have htextin := hend.resolve_left hsignal
          refine ⟨by simp [ScanState.start, hin, htextin], ?_⟩
          rintro action r' heq
          cases heq
          exact .inr hstored
      · simp [hsignal, hnul, ScanState.start, and_comm]
  · have hout : ¬ (fieldRead lib ies).Inside := fun hin => hmapped (mapped_of_inside hies hin)
    simp [hmapped, hout, ScanState.start]

/-- The parser of libnl, and a field behind eight bytes. -/
def nl80211 : Libnl := { libnlParser with attrMax := 316, bssMax := 20, signalMbm := 8 }

/-- A BSS with the BSSID 02:11:22:33:44:55 and two elements: the name "home" and eight
rates. -/
def home : NlMsg where
  mem := [36, 0, 47, 0x80, 10, 0, 1, 0, 0x02, 0x11, 0x22, 0x33, 0x44, 0x55, 0, 0, 20, 0, 6, 0,
    0, 4, 0x68, 0x6f, 0x6d, 0x65, 1, 8, 0x82, 0x84, 0x8b, 0x96, 12, 18, 24, 36]
  len := 36
  fits := by decide

/-- A BSS with the BSSID 00:11:22:33:44:55 and no elements but its name. -/
def short : NlMsg where
  mem := [28, 0, 47, 0x80, 10, 0, 1, 0, 0x00, 0x11, 0x22, 0x33, 0x44, 0x55, 0, 0, 10, 0, 6, 0,
    0, 4, 0x68, 0x6f, 0x6d, 0x65, 0, 0, 0, 0, 0, 0]
  len := 28
  fits := by decide

/-- A result whose memory was not set. -/
def unset : WifiScanResult := ⟨List.replicate 32 0x78, List.length_replicate, 0⟩

/-- A run in which all calls work. -/
def delivering (msgs : List NlMsg) : ScanOutcomes := ⟨1, 0, (0, 2), 3, 4, 0, 0, msgs⟩

theorem carried_home : carried nl80211 home = some (⟨8, 6⟩, ⟨20, 16⟩) := by decide

theorem reads_inside_home :
    HandlerSafe nl80211 (delivering []) home unset ↔
      nl80211.signalMbm + 4 ≤ 16 ∧ (signalOf nl80211 home ⟨20, 16⟩ = 0#32 ∨
        NUL ∈ NlAttr.payload ⟨8, 6⟩ home.mem) :=
  reads_inside_iff carried_home unset (delivering [])

/-- The handler reads seven bytes of a BSSID of six, and a field behind the elements. -/
theorem reads_outside :
    ¬ HandlerSafe nl80211 (delivering []) home unset ∧
      ¬ HandlerSafe nl80211 (delivering []) short unset := by
  refine ⟨fun h => ?_, fun h => ?_⟩
  · have hout := h.1 ⟨⟨8, 6⟩, 0, 7⟩ (by decide)
    exact absurd hout (by unfold Read.Inside; decide)
  · have hout := h.1 ⟨⟨20, 6⟩, 8, 4⟩ (by decide)
    exact absurd hout (by unfold Read.Inside; decide)

/-! ## The messages -/

theorem shownOf_of_none {lib : Libnl} {msg : NlMsg} (h : carried lib msg = none) :
    shownOf lib msg = none := by
  rw [shownOf, h]
  rfl

theorem shownOf_of_some {lib : Libnl} {msg : NlMsg} {bssid ies : NlAttr}
    (h : carried lib msg = some (bssid, ies)) :
    shownOf lib msg =
      if signalOf lib msg ies = 0#32 then none else some (shownAt lib msg bssid ies) := by
  rw [shownOf, h]
  by_cases hsignal : signalOf lib msg ies = 0#32
  · simp [hsignal]
  · simp [hsignal, shownAt]

/-- In the information elements the handler finds the signal that is there. -/
theorem signalOf_inside {lib : Libnl} {msg : NlMsg} {ies : NlAttr}
    (h : lib.signalMbm + 4 ≤ ies.len) :
    intAt (ies.payload msg.mem) lib.signalMbm = signalOf lib msg ies := by
  have hbyte : ∀ i < 4, byteAt (ies.payload msg.mem) (lib.signalMbm + i) =
      byteAt msg.mem (ies.off + lib.signalMbm + i) := by
    intro i hi
    rw [NlAttr.payload, byteAt_slice (by omega), Nat.add_assoc]
  unfold signalOf intAt
  rw [hbyte 1 (by decide), hbyte 2 (by decide), hbyte 3 (by decide)]
  congr 1
  exact hbyte 0 (by decide)

/-- The handler shows the signal of every BSS. -/
theorem shownOf_of_bssOf {lib : Libnl} {msg : NlMsg} {b : Bss} (h : bssOf lib msg = some b) :
    ∃ v, shownOf lib msg = some v := by
  cases hc : carried lib msg with
  | none =>
    rw [bssOf, hc] at h
    cases h
  | some pair =>
    obtain ⟨bssid, ies⟩ := pair
    rw [bssOf, hc] at h
    simp only [Option.bind_eq_bind, Option.bind_some, Option.bind_eq_some_iff,
      Option.guard_eq_some', Option.pure_def] at h
    obtain ⟨-, hinside, -, hsignal, -⟩ := h
    rw [signalOf_inside hinside] at hsignal
    exact ⟨_, (shownOf_of_some hc).trans (if_neg hsignal)⟩

theorem lastShown_of_lastBss {lib : Libnl} {msgs : List NlMsg} {b : Bss}
    (h : lastBss lib msgs = some b) : ∃ v, lastShown lib msgs = some v := by
  obtain ⟨msg, hmsg, hb⟩ := List.mem_filterMap.mp (List.mem_of_getLast? h)
  obtain ⟨v, hv⟩ := shownOf_of_bssOf hb
  have hmem : v ∈ msgs.filterMap (shownOf lib) := List.mem_filterMap.mpr ⟨msg, hmsg, hv⟩
  exact ⟨_, List.getLast?_eq_some_getLast (List.ne_nil_of_mem hmem)⟩

/-- A message in memory: what it shows is stored, if anything, and the next comes. -/
theorem handle_of_survives {lib : Libnl} {msg : NlMsg} (h : Survives lib msg)
    (r : WifiScanResult) (o : ScanOutcomes) (s : ScanState) : ∃ reads,
    (handleWifiScan lib msg r).execE (scancall o) s =
      (.ok (NL_SKIP, stored lib msg r), ⟨reads, s.console⟩) := by
  cases hc : carried lib msg with
  | none =>
    refine ⟨s.reads, ?_⟩
    rw [handleWifiScan_eq, hc, stored, shownOf_of_none hc]
    rfl
  | some pair =>
    obtain ⟨bssid, ies⟩ := pair
    obtain ⟨hmapped, htext⟩ := h bssid ies hc
    rw [execE_handle_of_some hc, execE_storeBss, stored, shownOf_of_some hc, if_pos hmapped]
    by_cases hsignal : signalOf lib msg ies = 0#32
    · rw [if_pos hsignal, if_pos hsignal]
      exact ⟨_, rfl⟩
    · rw [if_neg hsignal, if_neg hsignal, if_pos (htext hsignal)]
      exact ⟨_, rfl⟩

theorem handle_of_not_survives {lib : Libnl} {msg : NlMsg} (h : ¬ Survives lib msg)
    (r : WifiScanResult) (o : ScanOutcomes) (s : ScanState) : ∃ reads,
    (handleWifiScan lib msg r).execE (scancall o) s =
      (.error .unmapped, ⟨reads, s.console⟩) := by
  simp only [Survives, not_forall, not_and, exists_prop] at h
  obtain ⟨bssid, ies, hc, hout⟩ := h
  rw [execE_handle_of_some hc, execE_storeBss]
  by_cases hmapped : ies.off + lib.signalMbm + 4 ≤ msg.mem.length
  · obtain ⟨hsignal, hnul⟩ := hout hmapped
    rw [if_pos hmapped, if_neg hsignal, if_neg hnul]
    exact ⟨_, rfl⟩
  · rw [if_neg hmapped]
    exact ⟨_, rfl⟩

/-- The result after the messages: what the last one shows that shows anything, or as it
was. -/
def LastStored (r r' : WifiScanResult) : Option Shown → Prop
  | some v => ∃ old, r' = v.store old
  | none => r' = r

theorem lastShown_cons (lib : Libnl) (msg : NlMsg) (msgs : List NlMsg) :
    lastShown lib (msg :: msgs) = (lastShown lib msgs).or (shownOf lib msg) := by
  unfold lastShown
  cases hmsg : shownOf lib msg with
  | none => simp [hmsg]
  | some v =>
    rw [List.filterMap_cons_some hmsg, List.getLast?_cons]
    cases (msgs.filterMap (shownOf lib)).getLast? with
    | none => rfl
    | some v' => rfl

theorem LastStored.cons {lib : Libnl} {msg : NlMsg} {msgs : List NlMsg} {r r' : WifiScanResult}
    (h : LastStored (stored lib msg r) r' (lastShown lib msgs)) :
    LastStored r r' (lastShown lib (msg :: msgs)) := by
  rw [lastShown_cons]
  unfold stored at h
  cases hrest : lastShown lib msgs with
  | some v =>
    rw [hrest] at h
    exact h
  | none =>
    rw [hrest] at h
    cases hv : shownOf lib msg with
    | none =>
      rw [hv] at h
      exact h
    | some v =>
      rw [hv] at h
      exact ⟨r, h⟩

/-- What a message shows takes the place of what was shown before. -/
theorem deliver_of_survives {lib : Libnl} {msgs : List NlMsg}
    (h : ∀ msg ∈ msgs, Survives lib msg) (r : WifiScanResult) (o : ScanOutcomes)
    (s : ScanState) : ∃ r' reads,
    (deliver lib msgs r).execE (scancall o) s = (.ok r', ⟨reads, s.console⟩) ∧
      LastStored r r' (lastShown lib msgs) := by
  induction msgs generalizing r s with
  | nil => exact ⟨r, s.reads, rfl, rfl⟩
  | cons msg msgs ih =>
    obtain ⟨hmsg, hmsgs⟩ := List.forall_mem_cons.mp h
    obtain ⟨reads, hhandle⟩ := handle_of_survives hmsg r o s
    obtain ⟨r', reads', hdeliver, hlast⟩ :=
      ih hmsgs (stored lib msg r) ⟨reads, s.console⟩
    refine ⟨r', reads', ?_, hlast.cons⟩
    rw [deliver, Prog.execE_bind, hhandle]
    exact hdeliver

theorem deliver_of_not_survives {lib : Libnl} {msgs : List NlMsg}
    (h : ¬ ∀ msg ∈ msgs, Survives lib msg) (r : WifiScanResult) (o : ScanOutcomes)
    (s : ScanState) : ∃ reads,
    (deliver lib msgs r).execE (scancall o) s = (.error .unmapped, ⟨reads, s.console⟩) := by
  induction msgs generalizing r s with
  | nil => exact absurd nofun h
  | cons msg msgs ih =>
    by_cases hmsg : Survives lib msg
    · have hmsgs : ¬ ∀ msg ∈ msgs, Survives lib msg :=
        fun hall => h (List.forall_mem_cons.mpr ⟨hmsg, hall⟩)
      obtain ⟨reads, hhandle⟩ := handle_of_survives hmsg r o s
      obtain ⟨reads', hdeliver⟩ := ih hmsgs (stored lib msg r) ⟨reads, s.console⟩
      refine ⟨reads', ?_⟩
      rw [deliver, Prog.execE_bind, hhandle]
      exact hdeliver
    · obtain ⟨reads, hhandle⟩ := handle_of_not_survives hmsg r o s
      refine ⟨reads, ?_⟩
      rw [deliver, Prog.execE_bind, hhandle]

/-! ## What is printed -/

section

variable (lib : Libnl) (o : ScanOutcomes) (stale : WifiScanResult) (after : List Byte)

def run : Except Fault Int × ScanState := (main lib stale after).execE (scancall o) .start

/-- The lines of a result, the last first. -/
def lines (text : List Byte) (dBm : Int) : List Out :=
  [.stdout [.text "Signal Strength: ", .dec dBm, .text " dBm\n"],
    .stdout [.text "SSID: ", .str text, .text "\n"],
    .stdout [.text "Wi-Fi scan result:\n"]]

end

/-- The tests of `main`. -/
theorem ScanOutcomes.Works.not_lt {o : ScanOutcomes} (hw : o.Works) :
    ¬ o.connected < 0 ∧ ¬ o.cache.1 < 0 ∧ ¬ o.sent < 0 ∧ ¬ o.received < 0 :=
  ⟨Int.not_lt.mpr hw.connected, Int.not_lt.mpr hw.cache, Int.not_lt.mpr hw.sent,
    Int.not_lt.mpr hw.received⟩

/-- With a string at the result `main` prints it and returns. Without one it is killed. -/
theorem run_of_deliver_ok {lib : Libnl} {o : ScanOutcomes} (hw : o.Works)
    {stale r : WifiScanResult} {reads : List Read} (after : List Byte)
    (hd : (deliver lib o.delivered stale).execE (scancall o) .start = (.ok r, ⟨reads, .start⟩)) :
    match cString (r.memory after) with
    | some text => (run lib o stale after).1 = .ok EXIT_SUCCESS ∧
        (run lib o stale after).2.console.out = lines text r.signalStrength.toInt
    | none => (run lib o stale after).1 = .error .unmapped := by
  obtain ⟨hconnected, hcache, hsent, hreceived⟩ := hw.not_lt
  cases htext : cString (r.memory after) with
  | none =>
    simp [run, main, Prog.execE, scancall, hw.nlsock, hw.msg, hconnected, hcache, hsent, hreceived,
      Prog.execE_bind, hd, Console.printf, convert, htext]
  | some text =>
    simp [run, main, Prog.execE, scancall, hw.nlsock, hw.msg, hconnected, hcache, hsent, hreceived,
      Prog.execE_bind, hd, Console.printf, convert, htext, lines, Console.start]

theorem run_of_deliver_error {lib : Libnl} {o : ScanOutcomes} (hw : o.Works)
    {stale : WifiScanResult} {s' : ScanState} (after : List Byte)
    (hd : (deliver lib o.delivered stale).execE (scancall o) .start = (.error .unmapped, s')) :
    (run lib o stale after).1 = .error .unmapped := by
  obtain ⟨hconnected, hcache, hsent, -⟩ := hw.not_lt
  simp [run, main, Prog.execE, scancall, hw.nlsock, hw.msg, hconnected, hcache, hsent,
    Prog.execE_bind, hd]

/-- The string and the signal that were stored. -/
theorem cString_store (v : Shown) (hv : NUL ∉ v.text) (old : WifiScanResult)
    (after : List Byte) : cString ((v.store old).memory after) = some (v.text.take 31) := by
  have hpos : 0 < old.ssid.length := by
    rw [old.length_ssid]
    decide
  have hread := cString_storeString hpos hv (le32 (v.signal.sdiv 100) ++ after)
  rw [old.length_ssid] at hread
  rw [WifiScanResult.memory, List.append_assoc]
  exact hread

theorem toInt_store (v : Shown) (old : WifiScanResult) :
    (v.store old).signalStrength.toInt = v.signal.toInt.tdiv 100 :=
  BitVec.toInt_sdiv_of_ne_or_ne v.signal 100 (.inr (by decide))

theorem NUL_notMem_text {lib : Libnl} {msgs : List NlMsg} {v : Shown}
    (h : lastShown lib msgs = some v) : NUL ∉ v.text := by
  obtain ⟨msg, -, hv⟩ := List.mem_filterMap.mp (List.mem_of_getLast? h)
  cases hc : carried lib msg with
  | none =>
    rw [shownOf_of_none hc] at hv
    cases hv
  | some pair =>
    rw [shownOf_of_some hc] at hv
    split at hv
    · cases hv
    · rw [← Option.some.inj hv]
      exact not_mem_cut _

theorem lines_inj {text text' : List Byte} {dBm dBm' : Int} :
    lines text dBm = lines text' dBm' ↔ text = text' ∧ dBm = dBm' := by
  simp [lines, and_comm]

def IsText : Piece → Prop
  | .text _ => True
  | .dec _ | .str _ => False

/-- `main` returns and has printed the network name and the signal of the last BSS, the
name cut to 31 bytes. When there was no BSS it has printed no string and no number. -/
def PrintsLast (lib : Libnl) (o : ScanOutcomes) (stale : WifiScanResult) (after : List Byte) :
    Prop :=
  (∃ code, (run lib o stale after).1 = .ok code) ∧
    match lastBss lib o.delivered with
    | some b => ∃ name, networkName b.ies = some name ∧
        (run lib o stale after).2.console.out = lines (name.take 31) (b.signal.toInt.tdiv 100)
    | none => ∀ line, .stdout line ∈ (run lib o stale after).2.console.out →
        ∀ piece ∈ line, IsText piece

section

variable {lib : Libnl} {o : ScanOutcomes}

/-- What was shown last is printed. -/
theorem run_of_lastShown (hw : o.Works) (hs : ∀ msg ∈ o.delivered, Survives lib msg) {v : Shown}
    (hv : lastShown lib o.delivered = some v) (stale : WifiScanResult) (after : List Byte) :
    (run lib o stale after).1 = .ok EXIT_SUCCESS ∧
      (run lib o stale after).2.console.out =
        lines (v.text.take 31) (v.signal.toInt.tdiv 100) := by
  obtain ⟨r, reads, hd, hlast⟩ := deliver_of_survives hs stale o .start
  rw [hv] at hlast
  obtain ⟨old, rfl⟩ := hlast
  have hrun := run_of_deliver_ok hw after hd
  rw [cString_store v (NUL_notMem_text hv) old after, toInt_store v old] at hrun
  exact hrun

/-- When no message shows anything, the memory is printed that the result had before, or
none. -/
theorem run_of_nothing_shown (hw : o.Works) (hs : ∀ msg ∈ o.delivered, Survives lib msg)
    (hv : lastShown lib o.delivered = none) (stale : WifiScanResult) (after : List Byte) :
    match cString (stale.memory after) with
    | some text => (run lib o stale after).1 = .ok EXIT_SUCCESS ∧
        (run lib o stale after).2.console.out = lines text stale.signalStrength.toInt
    | none => (run lib o stale after).1 = .error .unmapped := by
  obtain ⟨r, reads, hd, hlast⟩ := deliver_of_survives hs stale o .start
  rw [hv] at hlast
  have hr : r = stale := hlast
  rw [hr] at hd
  exact run_of_deliver_ok hw after hd

theorem survives_of_printsLast (hw : o.Works) {stale : WifiScanResult} {after : List Byte}
    (h : PrintsLast lib o stale after) : ∀ msg ∈ o.delivered, Survives lib msg := by
  by_contra hs
  obtain ⟨s', hd⟩ := deliver_of_not_survives hs stale o .start
  obtain ⟨code, hcode⟩ := h.1
  rw [run_of_deliver_error hw after hd] at hcode
  cases hcode

/-- A run that prints a number has a BSS. -/
theorem lastBss_of_lines {stale : WifiScanResult} {after : List Byte} {text : List Byte} {dBm : Int}
    (h : PrintsLast lib o stale after)
    (hout : (run lib o stale after).2.console.out = lines text dBm) :
    ∃ b, lastBss lib o.delivered = some b := by
  cases hb : lastBss lib o.delivered with
  | some b => exact ⟨b, rfl⟩
  | none =>
    have htext := h.2
    rw [hb] at htext
    -- The line of the signal has a number.
    rw [hout] at htext
    exact (htext _ List.mem_cons_self (.dec dBm) (by simp)).elim

/-- When `main` prints what it should, some message has shown something. -/
theorem lastShown_of_printsLast (hw : o.Works) {stale : WifiScanResult} {after : List Byte}
    (h : PrintsLast lib o stale after) : ∃ v, lastShown lib o.delivered = some v := by
  cases hv : lastShown lib o.delivered with
  | some v => exact ⟨v, rfl⟩
  | none =>
    have hrun := run_of_nothing_shown hw (survives_of_printsLast hw h) hv stale after
    cases hstr : cString (stale.memory after) with
    | none =>
      rw [hstr] at hrun
      have herr : (run lib o stale after).1 = .error .unmapped := hrun
      obtain ⟨code, hcode⟩ := h.1
      rw [herr] at hcode
      cases hcode
    | some text =>
      rw [hstr] at hrun
      obtain ⟨b, hb⟩ := lastBss_of_lines h hrun.2
      obtain ⟨v, hshown⟩ := lastShown_of_lastBss hb
      rw [hv] at hshown
      cases hshown

theorem printsLast_iff_of_some (hw : o.Works) (hs : ∀ msg ∈ o.delivered, Survives lib msg)
    {b : Bss} (hb : lastBss lib o.delivered = some b) {v : Shown}
    (hv : lastShown lib o.delivered = some v) (stale : WifiScanResult) (after : List Byte) :
    PrintsLast lib o stale after ↔ ∃ name, networkName b.ies = some name ∧
      v.text.take 31 = name.take 31 ∧ v.signal.toInt.tdiv 100 = b.signal.toInt.tdiv 100 := by
  obtain ⟨hcode, hout⟩ := run_of_lastShown hw hs hv stale after
  unfold PrintsLast
  rw [hb, hcode, hout]
  simp only [lines_inj]
  exact and_iff_right ⟨EXIT_SUCCESS, rfl⟩

/-- `main` prints the network name and the signal of the last BSS exactly when the
process is not killed by a message, there is a BSS, and what the handler shows last is
its network name, and its signal. -/
theorem printsLast_iff (hw : o.Works) (stale : WifiScanResult) (after : List Byte) :
    PrintsLast lib o stale after ↔
      (∀ msg ∈ o.delivered, Survives lib msg) ∧
        ∃ b name v, lastBss lib o.delivered = some b ∧ networkName b.ies = some name ∧
          lastShown lib o.delivered = some v ∧ v.text.take 31 = name.take 31 ∧
          v.signal.toInt.tdiv 100 = b.signal.toInt.tdiv 100 := by
  constructor
  · intro h
    have hs := survives_of_printsLast hw h
    obtain ⟨v, hv⟩ := lastShown_of_printsLast hw h
    obtain ⟨b, hb⟩ := lastBss_of_lines h (run_of_lastShown hw hs hv stale after).2
    obtain ⟨name, hname, hshown⟩ := (printsLast_iff_of_some hw hs hb hv stale after).mp h
    exact ⟨hs, b, name, v, hb, hname, hv, hshown⟩
  · rintro ⟨hs, b, name, v, hb, hname, hv, hshown⟩
    exact (printsLast_iff_of_some hw hs hb hv stale after).mpr ⟨name, hname, hshown⟩

end

theorem delivering_works (msgs : List NlMsg) : (delivering msgs).Works := by
  constructor <;> simp [delivering]

theorem survives_home : ∀ msg ∈ [home], Survives nl80211 msg := by
  intro msg hmsg bssid ies hc
  rw [List.mem_singleton.mp hmsg, carried_home] at *
  cases hc
  decide

theorem printsLast_home :
    PrintsLast nl80211 (delivering [home]) unset [] ↔
      (∀ msg ∈ (delivering [home]).delivered, Survives nl80211 msg) ∧
        ∃ b name v, lastBss nl80211 (delivering [home]).delivered = some b ∧
          networkName b.ies = some name ∧
          lastShown nl80211 (delivering [home]).delivered = some v ∧
          v.text.take 31 = name.take 31 ∧
          v.signal.toInt.tdiv 100 = b.signal.toInt.tdiv 100 :=
  printsLast_iff (delivering_works [home]) unset []

/-- The message `short` with other memory behind it. -/
def beyond : NlMsg where
  mem := short.mem.take 28 ++ [0x70, 0x17, 0, 0]
  len := 28
  fits := by decide

theorem survives_beyond : ∀ msg ∈ [home, beyond], Survives nl80211 msg := by
  have hcarried : carried nl80211 beyond = some (⟨8, 6⟩, ⟨20, 6⟩) := by decide
  intro msg hmsg
  rcases List.mem_cons.mp hmsg with rfl | hmsg
  · exact survives_home home List.mem_cons_self
  · intro bssid ies hc
    rw [List.mem_singleton.mp hmsg, hcarried] at *
    cases hc
    decide

/-- A scan without messages prints the memory of the result, and one that finds the
network "home" prints its BSSID. A message without a signal of its own takes the place
of that BSS, with the memory behind the message for a signal. -/
theorem prints_other :
    ((run nl80211 (delivering []) unset []).2.console.out = lines unset.ssid 0 ∧
      ¬ PrintsLast nl80211 (delivering []) unset []) ∧
    ((run nl80211 (delivering [home]) unset []).2.console.out =
        lines [0x02, 0x11, 0x22, 0x33, 0x44, 0x55] (-17692414) ∧
      ¬ PrintsLast nl80211 (delivering [home]) unset []) ∧
    (run nl80211 (delivering [home, beyond]) unset []).2.console.out = lines [] 60 ∧
      ¬ PrintsLast nl80211 (delivering [home, beyond]) unset [] := by
  have hbss : lastBss nl80211 [home] = some ⟨slice home.mem 20 16, 0x968b8482⟩ := by decide
  have hbss' : lastBss nl80211 [home, beyond] = some ⟨slice home.mem 20 16, 0x968b8482⟩ := by
    decide
  have hshown : lastShown nl80211 [home] =
      some ⟨[0x02, 0x11, 0x22, 0x33, 0x44, 0x55], 0x968b8482⟩ := by decide
  have hshown' : lastShown nl80211 [home, beyond] = some ⟨[], 0x1770⟩ := by decide
  have hname : networkName (slice home.mem 20 16) = some [0x68, 0x6f, 0x6d, 0x65] := by decide
  refine ⟨⟨by decide, fun h => ?_⟩, ⟨?_, fun h => ?_⟩, ?_, fun h => ?_⟩
  · obtain ⟨v, hv⟩ := lastShown_of_printsLast (delivering_works []) h
    cases hv
  · refine (run_of_lastShown (delivering_works [home]) survives_home hshown unset []).2.trans ?_
    decide
  · obtain ⟨name, hname', htext, -⟩ :=
      (printsLast_iff_of_some (delivering_works [home]) survives_home hbss hshown unset []).mp h
    rw [← Option.some.inj (hname.symm.trans hname')] at htext
    exact absurd htext (by decide)
  · refine (run_of_lastShown (delivering_works _) survives_beyond hshown' unset []).2.trans ?_
    decide
  · obtain ⟨name, hname', htext, -⟩ :=
      (printsLast_iff_of_some (delivering_works _) survives_beyond hbss' hshown' unset []).mp h
    rw [← Option.some.inj (hname.symm.trans hname')] at htext
    exact absurd htext (by decide)

end DeviceDrivers.User.WifiScan
