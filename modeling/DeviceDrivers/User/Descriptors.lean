import DeviceDrivers.Lib.Handles
import DeviceDrivers.User.BusPrograms
import DeviceDrivers.User.Receive
import DeviceDrivers.User.WifiScan

/-!
# What the programs have open

The descriptors, buffers and libnl objects that the programs in user space open, use
and close. A program that is killed in `printf` ends there.

1. `programs_close`: six programs use a descriptor only while it is open, and have
   nothing open when they return. `Spi_userSpace_test_v1_0.c` leaves its descriptor
   to the end of the process when a call after the first fails.
2. `scan_misuses`: `Wifi-userSpace.c` frees its message on every path. When it has got
   a cache, it uses the cache in the place of its socket, and frees neither.
-/

namespace DeviceDrivers.User

open HandleOps

/-- A call that opens something returns a descriptor, or -1. -/
def IsDescriptor (r : Int) : Prop := r = -1 ∨ 0 ≤ r

def descriptor (r : Int) : Option Int := if 0 ≤ r then some r else none

/-- Nothing is left open. -/
def Closed {H : Type} (_ : Int) (held : List H) : Prop := held = []

/-! ## The programs that receive -/

namespace Receive

def files : HandleOps UserCall UserCall.Res Int where
  needs
    | .siocgifindex fd _ | .bindCan fd _ | .setSpeed fd _ | .write fd _ | .read fd _ => [fd]
    | _ => []
  closes
    | .close fd => some fd
    | _ => none
  opens
    | .openDev _, r | .socketCan, r => descriptor r
    | _, _ => none
  answers
    | .openDev _, r | .socketCan, r => IsDescriptor r
    | _, _ => True

theorem uart_obeys (m : Memory) : (uartMain m).Obeys files.holding Closed [] := by
  refine obeys_call_bind.mpr ⟨.free rfl rfl, ?_⟩
  rintro fd (rfl | hfd)
  · simp [obeys_call, May, next, files, descriptor, Closed]
  · have hne : ¬ fd = (-1 : Int) := fun heq => absurd (heq ▸ hfd) (by decide)
    simp [obeys_call, Prog.obeys_ite, May, next, files, descriptor, Closed, hfd, hne]

theorem usb_obeys (m : Memory) : (usbMain m).Obeys files.holding Closed [] := by
  refine obeys_call_bind.mpr ⟨.free rfl rfl, ?_⟩
  rintro fd (rfl | hfd)
  · simp [obeys_call, May, next, files, descriptor, Closed]
  · simp [obeys_call, Prog.obeys_ite, May, next, files, descriptor, Closed, hfd]

theorem wiFi_obeys (m : Memory) : (wiFiMain m).Obeys files.holding Closed [] := by
  refine obeys_call_bind.mpr ⟨.free rfl rfl, ?_⟩
  rintro fd (rfl | hfd)
  · simp [obeys_call, May, next, files, descriptor, Closed]
  · simp [obeys_call, Prog.obeys_ite, May, next, files, descriptor, Closed, hfd]

theorem can_obeys (m : Memory) : (canMain m).Obeys files.holding Closed [] := by
  refine obeys_call_bind.mpr ⟨.free rfl rfl, ?_⟩
  rintro fd (rfl | hfd)
  · simp [obeys_call, May, next, files, descriptor, Closed]
  · simp [obeys_call, Prog.obeys_ite, May, next, files, descriptor, Closed, hfd]

theorem main_obeys (p : Path) (m : Memory) : (p.main m).Obeys files.holding Closed [] := by
  cases p with
  | uart => exact uart_obeys m
  | usb => exact usb_obeys m
  | wiFi => exact wiFi_obeys m
  | can => exact can_obeys m

end Receive

/-! ## The programs on the buses -/

namespace BusPrograms

inductive Handle
  | fd (n : Int)
  | devices (p : Nat)
deriving DecidableEq

/-- An inquiry that works hands out the buffer with its devices. -/
def handles : HandleOps BusCall BusCall.Res Handle where
  needs
    | .i2cSlave fd _ | .spiWrMode fd _ | .spiWrMaxSpeedHz fd _ | .spiMessage fd .. | .write fd _
    | .read fd _ => [.fd fd]
    | .loadBdaddr p _ => [.devices p]
    | _ => []
  closes
    | .close fd => some (.fd fd)
    | .free p => some (.devices p)
    | _ => none
  opens
    | .openDev _, r | .socketHci, r => (descriptor r).map .fd
    | .hciInquiry .., r => if 0 ≤ r.1 then some (.devices r.2) else none
    | _, _ => none
  answers
    | .openDev _, r | .socketHci, r => IsDescriptor r
    | _, _ => True

theorem i2c_obeys : i2cMain.Obeys handles.holding Closed [] := by
  refine obeys_call_bind.mpr ⟨.free rfl rfl, ?_⟩
  rintro fd (rfl | hfd)
  · simp [obeys_call, May, next, handles, descriptor, Closed]
  · simp [obeys_call, Prog.obeys_ite, May, next, handles, descriptor, Closed, hfd]

theorem printAll_obeys (bs : List Byte) (held : List Handle) :
    (printAll bs).Obeys handles.holding (fun _ held' => held' = held) held := by
  induction bs with
  | nil => exact rfl
  | cons b bs ih => exact obeys_call.mpr ⟨.free rfl rfl, fun _ _ => ih⟩

/-- The program exits with 1, or has closed its descriptor. -/
def SpiLeft (r : Int) (held : List Handle) : Prop :=
  held = [] ∨ r = 1 ∧ ∃ fd, held = [.fd fd]

theorem spiInit_obeys : spiInit.Obeys handles.holding (fun r held => match r with
    | .error code => SpiLeft code held
    | .ok fd => held = [.fd fd]) [] := by
  refine obeys_call_bind.mpr ⟨.free rfl rfl, ?_⟩
  rintro fd (rfl | hfd)
  · simp [obeys_call, May, next, handles, descriptor, SpiLeft]
  · simp [obeys_call, Prog.obeys_ite, May, next, handles, descriptor, SpiLeft, hfd]

theorem spiTransfer_obeys (fd : Int) (txBuf rxBuf : List Byte) (len : Nat) :
    (spiTransfer fd txBuf rxBuf len).Obeys handles.holding (fun r held => match r with
      | .error code => SpiLeft code held
      | .ok _ => held = [.fd fd]) [.fd fd] := by
  simp [spiTransfer, obeys_call, Prog.obeys_ite, May, next, handles, SpiLeft]

theorem spiMain_obeys (old : Fin 3 → Byte) : (spiMain old).Obeys handles.holding SpiLeft [] := by
  refine Prog.Obeys.bind (spiInit_obeys.mono fun r held hr => ?_)
  cases r with
  | error code => exact hr
  | ok fd =>
    obtain rfl := hr
    refine Prog.Obeys.bind ((spiTransfer_obeys fd _ _ 3).mono fun r held hr => ?_)
    cases r with
    | error code => exact hr
    | ok rxBuffer =>
      obtain rfl := hr
      refine Prog.Obeys.bind ((printAll_obeys rxBuffer _).mono fun _ held hheld => ?_)
      obtain rfl := hheld
      simp [obeys_call, May, next, handles, SpiLeft]

theorem printDevices_obeys {p : Nat} {held : List Handle} (hp : .devices p ∈ held) (i n : Nat) :
    (printDevices p i n).Obeys handles.holding (fun _ held' => held' = held) held := by
  induction n generalizing i with
  | zero => exact rfl
  | succ n ih =>
    refine obeys_call.mpr ⟨.needing rfl rfl hp, fun ba _ => ?_⟩
    exact obeys_call.mpr ⟨.free rfl rfl, fun _ _ => ih (i + 1)⟩

theorem bluetooth_obeys : bluetoothMain.Obeys handles.holding Closed [] := by
  refine obeys_call_bind.mpr ⟨.free rfl rfl, ?_⟩
  rintro fd (rfl | hfd)
  · simp [obeys_call, May, next, handles, descriptor, Closed]
  have hnext : next handles .socketHci fd [] = [.fd fd] := by
    simp [next, handles, descriptor, show (0 : Int) ≤ fd from hfd]
  have hnot : ¬ (fd : Int) < 0 := Int.not_lt.mpr hfd
  rw [hnext, if_neg hnot]
  refine obeys_call_bind.mpr ⟨.free rfl rfl, fun route _ => ?_⟩
  refine obeys_call_bind.mpr ⟨.free rfl rfl, fun answer _ => ?_⟩
  obtain ⟨numDevices, devices⟩ := answer
  rcases Int.lt_or_le numDevices 0 with hfail | hfound
  · simp [obeys_call, May, next, handles, Closed, hfail]
  · have hboth : next handles (.hciInquiry route 8 10) (numDevices, devices)
        (next handles .hciGetRoute route [.fd fd]) = [.devices devices, .fd fd] := by
      simp [next, handles, hfound]
    rw [hboth]
    simp only [if_neg (Int.not_lt.mpr hfound)]
    refine obeys_call_bind.mpr ⟨.free rfl rfl, fun _ _ => ?_⟩
    refine Prog.Obeys.bind ((printDevices_obeys List.mem_cons_self 0 _).mono fun _ held hheld => ?_)
    obtain rfl := hheld
    simp [obeys_call, May, next, handles, Closed]

end BusPrograms

/-- Six of the programs have nothing open when they return, in every run; the SPI
program has closed its descriptor unless it exits with 1. -/
theorem programs_close (p : Receive.Path) (m : Receive.Memory) (old : Fin 3 → Byte) :
    Receive.files.Leaves Closed (p.main m) ∧
    BusPrograms.handles.Leaves Closed BusPrograms.i2cMain ∧
    BusPrograms.handles.Leaves Closed BusPrograms.bluetoothMain ∧
    BusPrograms.handles.Leaves BusPrograms.SpiLeft (BusPrograms.spiMain old) :=
  ⟨leaves_of_obeys (Receive.main_obeys p m), leaves_of_obeys BusPrograms.i2c_obeys,
    leaves_of_obeys BusPrograms.bluetooth_obeys, leaves_of_obeys (BusPrograms.spiMain_obeys old)⟩

/-! ## The scanning program -/

namespace WifiScan

/-- The objects of libnl. -/
inductive Object
  | sock (p : Nat)
  | cache (p : Nat)
  | msg (p : Nat)
deriving DecidableEq

/-- The calls in a run where `nl_socket_alloc` returns `socket`. A cache is only handed
out when the call works, at an address of its own, and else the variable stays as it
is. -/
def objects (socket : Nat) : HandleOps ScanCall ScanCall.Res Object where
  needs
    | .genlConnect nlsock | .genlCtrlAllocCache nlsock | .nlRecvmsgs nlsock => [.sock nlsock]
    | .genlmsgPut msg .. | .nlaPutU32 msg .. => [.msg msg]
    | .nlSendAutoComplete nlsock msg => [.sock nlsock, .msg msg]
    | _ => []
  closes
    | .nlmsgFree msg => some (.msg msg)
    | .nlSocketFree nlsock => some (.sock nlsock)
    | _ => none
  opens
    | .nlSocketAlloc, r => if r = 0 then none else some (.sock r)
    | .genlCtrlAllocCache _, r => if r.1 < 0 then none else some (.cache r.2)
    | .nlmsgAlloc, r => if r = 0 then none else some (.msg r)
    | _, _ => none
  answers
    | .nlSocketAlloc, r => r = socket
    | .genlCtrlAllocCache nlsock, r => (r.1 < 0 → r.2 = nlsock) ∧ (0 ≤ r.1 → r.2 ≠ nlsock)
    | _, _ => True

/-- How a run ends: what `main` returns, what is not freed, and the calls that are given
what they should not. Without a cache all is freed. With one the socket and the cache are
left, and the cache is sent on, received from and freed as a socket. -/
inductive ScanEnds (socket : Nat) : Int → List Object → List ScanCall → Prop
  | noCache : ScanEnds socket EXIT_FAILURE [] []
  | noMessage (cache : Nat) : ScanEnds socket EXIT_FAILURE [.cache cache, .sock socket]
      [.nlSocketFree cache]
  | notSent (cache msg : Nat) : ScanEnds socket EXIT_FAILURE [.cache cache, .sock socket]
      [.nlSendAutoComplete cache msg, .nlSocketFree cache]
  | received (cache msg : Nat) {r : Int} (h : r = EXIT_FAILURE ∨ r = EXIT_SUCCESS) :
      ScanEnds socket r [.cache cache, .sock socket]
        [.nlSendAutoComplete cache msg, .nlRecvmsgs cache, .nlSocketFree cache]

/-- A run ends in one of these ways, and has a cache left exactly if it got that one. -/
structure ScanMeets (socket : Nat) (r : Int) (got left : List Object) (bad : List ScanCall) :
    Prop where
  ends : ScanEnds socket r left bad
  caches : ∀ cache, .cache cache ∈ left ↔ .cache cache ∈ got

theorem storeBss_tracks {socket : Nat} (lib : Libnl) (msg : NlMsg) (bssid ies : NlAttr)
    (result : WifiScanResult) (held : List Object) (bad : List ScanCall) :
    (storeBss lib msg bssid ies result).Obeys (objects socket).tracking
      (fun _ p => p = (held, bad)) (held, bad) := by
  simp [storeBss, tracks_call, Prog.obeys_ite, May, next, objects]

theorem handleWifiScan_tracks {socket : Nat} (lib : Libnl) (msg : NlMsg) (result : WifiScanResult)
    (held : List Object) (bad : List ScanCall) :
    (handleWifiScan lib msg result).Obeys (objects socket).tracking
      (fun _ p => p = (held, bad)) (held, bad) := by
  unfold handleWifiScan
  simp only
  split
  · split
    · exact Prog.Obeys.bind ((storeBss_tracks lib msg _ _ result held bad).mono fun _ _ h => h)
    · exact rfl
  · exact rfl

theorem deliver_tracks {socket : Nat} (lib : Libnl) (msgs : List NlMsg) (result : WifiScanResult)
    (held : List Object) (bad : List ScanCall) :
    (deliver lib msgs result).Obeys (objects socket).tracking
      (fun _ p => p = (held, bad)) (held, bad) := by
  induction msgs generalizing result with
  | nil => exact rfl
  | cons msg msgs ih =>
    refine Prog.Obeys.bind ((handleWifiScan_tracks lib msg result held bad).mono ?_)
    rintro ⟨action, result⟩ p rfl
    refine Prog.obeys_ite.mpr ⟨fun _ => rfl, fun _ => ih result⟩

theorem main_tracks (socket : Nat) (lib : Libnl) (scanResult : WifiScanResult)
    (after : List Byte) : (main lib scanResult after).Obeys (objects socket).tracking
      (fun r p => ScanEnds socket r p.1 p.2) ([], []) := by
  refine tracks_of_may (.free rfl rfl) fun nlsock heq => ?_
  obtain rfl : nlsock = socket := heq
  have hnoCache : ScanEnds nlsock EXIT_FAILURE [] [] := .noCache
  refine Prog.obeys_ite.mpr ⟨fun hnull => ?_, fun hsock => ?_⟩
  · simpa [tracks_call, May, next, objects, hnull] using hnoCache
  have hopen : next (objects nlsock) .nlSocketAlloc nlsock [] = [.sock nlsock] := by
    simp [next, objects, show ¬ (nlsock : Nat) = 0 from hsock]
  rw [hopen]
  refine tracks_of_may (.needing rfl rfl (by simp)) fun ret _ => ?_
  refine Prog.obeys_ite.mpr ⟨fun hfail => ?_, fun _ => ?_⟩
  · simpa [tracks_call, May, next, objects] using hnoCache
  refine tracks_of_may (.needing rfl rfl (by simp [objects, next])) fun answer hanswer => ?_
  obtain ⟨allocated, cache⟩ := answer
  obtain ⟨hsame, hother⟩ := hanswer
  refine Prog.obeys_ite.mpr ⟨fun hfail => ?_, fun hcache => ?_⟩
  · obtain rfl : cache = nlsock := hsame hfail
    simpa [tracks_call, May, next, objects, hfail] using hnoCache
  -- From here on the variable of the socket names the cache.
  have hne : ¬ cache = nlsock := hother (Int.not_lt.mp hcache)
  have hkept : [Object.sock nlsock].erase (.sock cache) = [.sock nlsock] :=
    List.erase_of_not_mem (by simp [hne])
  have hboth : next (objects nlsock) (.genlCtrlAllocCache nlsock) (allocated, cache)
      (next (objects nlsock) (.genlConnect nlsock) ret [.sock nlsock]) =
        [.cache cache, .sock nlsock] := by
    simp [next, objects, hcache]
  rw [hboth]
  refine tracks_of_may (.free rfl rfl) fun msg _ => ?_
  refine Prog.obeys_ite.mpr ⟨fun hnull => ?_, fun hmsg => ?_⟩
  · have hends : ScanEnds nlsock _ _ _ := .noMessage cache
    simpa [tracks_call, May, next, objects, hnull, hne, hkept] using hends
  have hall : next (objects nlsock) .nlmsgAlloc msg [.cache cache, .sock nlsock] =
      [.msg msg, .cache cache, .sock nlsock] := by
    simp [next, objects, show ¬ (msg : Nat) = 0 from hmsg]
  rw [hall]
  refine tracks_of_may (.needing rfl rfl (by simp)) fun _ _ => ?_
  refine tracks_of_may (.free rfl rfl) fun ifindex _ => ?_
  refine tracks_of_may (.needing rfl rfl (by simp [objects, next])) fun _ _ => ?_
  refine tracks_of_not_may (by simp [May, objects, next, hne]) fun sent _ => ?_
  refine Prog.obeys_ite.mpr ⟨fun hfail => ?_, fun _ => ?_⟩
  · have hends : ScanEnds nlsock _ _ _ := .notSent cache msg
    simpa [tracks_call, May, next, objects, hne, hkept] using hends
  refine tracks_of_not_may (by simp [May, objects, next, hne]) fun answer _ => ?_
  obtain ⟨received, msgs⟩ := answer
  refine Prog.Obeys.bind ((deliver_tracks lib msgs scanResult _ _).mono fun result p hp => ?_)
  obtain rfl := hp
  have hends : ∀ r, _ → ScanEnds nlsock r _ _ := fun r hr => .received cache msg hr
  refine Prog.obeys_ite.mpr ⟨fun hfail => ?_, fun _ => ?_⟩
  · simpa [tracks_call, May, next, objects, hne, hkept] using hends EXIT_FAILURE (.inl rfl)
  · simpa [tracks_call, May, next, objects, hne, hkept] using hends EXIT_SUCCESS (.inr rfl)

end WifiScan

/-- In every run the message is freed, if there is one. The socket is freed exactly when
the run gets no cache: once it has one, the calls for the socket get the cache, so that
neither is freed, also when the run works. -/
theorem scan_misuses (socket : Nat) (lib : WifiScan.Libnl) (stale : WifiScan.WifiScanResult)
    (after : List Byte) :
    (WifiScan.objects socket).Ends (WifiScan.ScanMeets socket) (WifiScan.main lib stale after) := by
  intro S h hanswers s
  obtain ⟨hends, hnever⟩ := ends_of_obeys (WifiScan.main_tracks socket lib stale after) h hanswers s
  refine ⟨hends, fun cache => hnever (.cache cache) fun c => ?_⟩
  cases c <;> simp [WifiScan.objects]

end DeviceDrivers.User
