import DeviceDrivers.Drivers.NetSpi

/-!
# The SPI network driver: runs

1. `open_close_iff`: opening and closing the interface. Exactly the runs without
   a close are right: `my_netdev_close` takes the SPI device, which the open only
   looked up, off the bus, and keeps the pointer to it.
2. `submitted_iff`: submitting skbs. The buffers that the handler gets itself are
   all given back, but no submitted skb is ever freed or passed on.
-/

namespace DeviceDrivers.NetSpi

/-! ## Source: open and close -/

/-- A `struct spi_device` at `addr`. -/
structure SpiDevice where
  addr : Addr
  busId : Nat
  deviceId : Nat
deriving DecidableEq, Repr

/-- The devices registered on the SPI bus. No two have the same numbers. -/
structure SpiBus where
  devices : List SpiDevice
  distinct : (devices.map fun d => (d.busId, d.deviceId)).Nodup

namespace SpiBus

/-- `spi_bus_find_device`. -/
def findDevice (bus : SpiBus) (busId deviceId : Nat) : Option SpiDevice :=
  bus.devices.find? fun d => d.busId == busId && d.deviceId == deviceId

/-- `spi_unregister_device`. It is assumed to do nothing for a device that is not on the
bus any more. -/
def unregisterDevice (bus : SpiBus) (dev : SpiDevice) : SpiBus where
  devices := bus.devices.filter (· != dev)
  distinct := bus.distinct.sublist (List.filter_sublist.map _)

theorem mem_of_findDevice {bus : SpiBus} {busId deviceId : Nat} {dev : SpiDevice}
    (h : bus.findDevice busId deviceId = some dev) : dev ∈ bus.devices :=
  List.mem_of_find?_eq_some h

theorem not_mem_unregisterDevice (bus : SpiBus) (dev : SpiDevice) :
    dev ∉ (bus.unregisterDevice dev).devices := by
  simp [unregisterDevice]

end SpiBus

/-- The interface: the bus, the global `my_spi_dev`, what was printed, and the bus
as it was before each open that is still to be closed. -/
structure Interface where
  bus : SpiBus
  mySpiDev : Option SpiDevice
  printed : List String
  opens : List SpiBus

def notFoundMsg : String := "Failed to find SPI device\n"

/-- What is returned, `my_spi_dev` and what is printed. -/
def myNetdevOpen (bus : SpiBus) : Int × Option SpiDevice × List String :=
  match bus.findDevice SPI_BUS_ID SPI_DEVICE_ID with
  | none => (EOPNOTSUPP.code, none, [notFoundMsg])
  | some dev => (0, some dev, [])

/-- What is returned, and the bus. The pointer is not set to NULL. -/
def myNetdevClose (bus : SpiBus) (mySpiDev : Option SpiDevice) : Int × SpiBus :=
  match mySpiDev with
  | some dev => (0, bus.unregisterDevice dev)
  | none => (0, bus)

inductive IfEvent
  | open
  | close
deriving DecidableEq

/-- The interface is closed only after an open that succeeded. -/
def ifStep (s : Interface) : IfEvent → Interface
  | .open =>
    let (ret, mySpiDev, msgs) := myNetdevOpen s.bus
    { s with
      mySpiDev
      printed := msgs ++ s.printed
      opens := if ret = 0 then s.bus :: s.opens else s.opens }
  | .close =>
    match s.opens with
    | [] => s
    | _ :: opens => { s with bus := (myNetdevClose s.bus s.mySpiDev).2, opens }

/-- The interface before the first open. -/
def idle (bus : SpiBus) : Interface := ⟨bus, none, [], []⟩

/-! ## Opening and closing -/

/-- What a step should do, on a bus that was `bus₀` before the first open: the
pointer is NULL or names a registered device, a close restores the devices that
were registered before its open, and an open works if the first one did. -/
structure StepRight (bus₀ : SpiBus) (s : Interface) (e : IfEvent) : Prop where
  pointer : ∀ dev, (ifStep s e).mySpiDev = some dev → dev ∈ (ifStep s e).bus.devices
  restores : e = .close → ∀ before opens, s.opens = before :: opens →
    ∀ dev, dev ∈ (ifStep s e).bus.devices ↔ dev ∈ before.devices
  reopens : e = .open → (myNetdevOpen bus₀).1 = 0 → (myNetdevOpen s.bus).1 = 0

/-- The step is not the close of an open that succeeded. -/
def NotClosed (s : Interface) (e : IfEvent) : Prop := e = .close → s.opens = []

/-- The invariant of a run without a close: the bus is as it was, and the pointer
names the device that the opens found. -/
structure IfInv (bus₀ : SpiBus) (s : Interface) : Prop where
  bus : s.bus = bus₀
  pointer : s.mySpiDev = none ∨ s.mySpiDev = bus₀.findDevice SPI_BUS_ID SPI_DEVICE_ID
  opened : s.opens ≠ [] → s.mySpiDev.isSome
  before : ∀ bus ∈ s.opens, bus = bus₀

theorem ifInv_idle (bus₀ : SpiBus) : IfInv bus₀ (idle bus₀) where
  bus := rfl
  pointer := .inl rfl
  opened h := absurd rfl h
  before := List.forall_mem_nil _

theorem myNetdevOpen_cases (bus : SpiBus) :
    (bus.findDevice SPI_BUS_ID SPI_DEVICE_ID = none ∧
      myNetdevOpen bus = (EOPNOTSUPP.code, none, [notFoundMsg])) ∨
    (∃ dev, bus.findDevice SPI_BUS_ID SPI_DEVICE_ID = some dev ∧
      myNetdevOpen bus = (0, some dev, [])) := by
  unfold myNetdevOpen
  cases hfind : bus.findDevice SPI_BUS_ID SPI_DEVICE_ID with
  | none => exact .inl ⟨rfl, rfl⟩
  | some dev => exact .inr ⟨dev, rfl, rfl⟩

/-- What an open does to the interface. -/
theorem ifStep_open_cases (s : Interface) :
    (s.bus.findDevice SPI_BUS_ID SPI_DEVICE_ID = none ∧ ifStep s .open =
      { s with mySpiDev := none, printed := notFoundMsg :: s.printed }) ∨
    (∃ dev, s.bus.findDevice SPI_BUS_ID SPI_DEVICE_ID = some dev ∧ ifStep s .open =
      { s with mySpiDev := some dev, opens := s.bus :: s.opens }) := by
  rcases myNetdevOpen_cases s.bus with ⟨hfind, hopen⟩ | ⟨dev, hfind, hopen⟩
  · refine .inl ⟨hfind, ?_⟩
    have hfail : EOPNOTSUPP.code ≠ 0 := by decide
    simp [ifStep, hopen, hfail]
  · exact .inr ⟨dev, hfind, by simp [ifStep, hopen]⟩

theorem ifInv_step {bus₀ : SpiBus} {s : Interface} (h : IfInv bus₀ s) {e : IfEvent}
    (he : NotClosed s e) : IfInv bus₀ (ifStep s e) := by
  cases e with
  | close =>
    have hnone : s.opens = [] := he rfl
    simpa [ifStep, hnone] using h
  | «open» =>
    rcases ifStep_open_cases s with ⟨hfind, hstep⟩ | ⟨dev, hfind, hstep⟩
    · rw [hstep]
      refine ⟨h.bus, .inl rfl, fun hopens => ?_, h.before⟩
      -- An open worked before, on the same bus.
      obtain ⟨dev, hdev⟩ := Option.isSome_iff_exists.mp (h.opened hopens)
      rcases h.pointer with hnull | hfound
      · rw [hdev] at hnull
        cases hnull
      · rw [hdev, ← h.bus, hfind] at hfound
        cases hfound
    · rw [hstep]
      refine ⟨h.bus, .inr ?_, fun _ => rfl, List.forall_mem_cons.mpr ⟨h.bus, h.before⟩⟩
      rw [← h.bus, hfind]

theorem IfInv.registered {bus₀ : SpiBus} {s : Interface} (h : IfInv bus₀ s) {dev : SpiDevice}
    (hdev : s.mySpiDev = some dev) : dev ∈ bus₀.devices := by
  rcases h.pointer with hnull | hfound
  · rw [hdev] at hnull
    cases hnull
  · exact SpiBus.mem_of_findDevice (hfound.symm.trans hdev)

theorem stepRight_of_inv {bus₀ : SpiBus} {s : Interface} (h : IfInv bus₀ s) {e : IfEvent}
    (he : NotClosed s e) : StepRight bus₀ s e := by
  have hnext : IfInv bus₀ (ifStep s e) := ifInv_step h he
  refine ⟨fun dev hdev => ?_, fun hclose before opens hopens => ?_, fun _ hfirst => ?_⟩
  · rw [hnext.bus]
    exact hnext.registered hdev
  · rw [he hclose] at hopens
    cases hopens
  · rw [h.bus]
    exact hfirst

/-- A close takes the device of its open off the bus. -/
theorem IfInv.not_restored {bus₀ : SpiBus} {s : Interface} (h : IfInv bus₀ s)
    (hopens : s.opens ≠ []) : ¬ StepRight bus₀ s .close := by
  intro hright
  obtain ⟨before, opens, hcons⟩ := List.exists_cons_of_ne_nil hopens
  obtain ⟨dev, hdev⟩ := Option.isSome_iff_exists.mp (h.opened hopens)
  have hbefore : before = bus₀ := h.before before (by rw [hcons]; exact List.mem_cons_self)
  have hmem : dev ∈ (ifStep s .close).bus.devices := by
    rw [hright.restores rfl before opens hcons, hbefore]
    exact h.registered hdev
  have hbus : (ifStep s .close).bus = s.bus.unregisterDevice dev := by
    simp [ifStep, hcons, hdev, myNetdevClose]
  rw [hbus] at hmem
  exact SpiBus.not_mem_unregisterDevice s.bus dev hmem

/-- From any set of registered devices, every step of a run is right if and only
if the run closes no open that succeeded. -/
theorem open_close_iff (bus₀ : SpiBus) (events : List IfEvent) :
    Run.Along ifStep (StepRight bus₀) (idle bus₀) events ↔
      Run.Along ifStep NotClosed (idle bus₀) events := by
  refine Run.along_iff_of_inv (I := IfInv bus₀) (fun s e h he => ?_) ?_ (ifInv_idle bus₀) events
  · exact ⟨stepRight_of_inv h he, ifInv_step h he⟩
  · rintro s _ h hright rfl
    by_contra hopens
    exact h.not_restored hopens hright

/-- The bus with one device, of the numbers that the driver looks for. -/
def oneDevice : SpiBus := ⟨[⟨1, 0, 0⟩], by decide⟩

/-- After one cycle the device is gone, the pointer names it, and the interface
cannot be opened again. -/
theorem closed_not_restored :
    ¬ Run.Along ifStep (StepRight oneDevice) (idle oneDevice) [.open, .close] ∧
      (Run.run ifStep (idle oneDevice) [.open, .close]).mySpiDev = some ⟨1, 0, 0⟩ ∧
      (Run.run ifStep (idle oneDevice) [.open, .close]).bus.devices = [] ∧
      (myNetdevOpen (Run.run ifStep (idle oneDevice) [.open, .close]).bus).1 =
        EOPNOTSUPP.code := by
  refine ⟨fun h => ?_, by decide, by decide, by decide⟩
  exact absurd (h.2.1.pointer ⟨1, 0, 0⟩ (by decide)) (by decide)

/-! ## Submitting skbs -/

/-- An skb that is handed to `my_netdev_rx`. -/
structure Submit where
  skb : Addr
  outcomes : SpiOutcomes

/-- From this value on the network core takes an answer for a failure, and keeps
the skb. -/
def NET_XMIT_MASK : Int := 0x0F

theorem drop_consumed : NET_RX_DROP < NET_XMIT_MASK := by decide

theorem success_consumed : NET_RX_SUCCESS < NET_XMIT_MASK := by decide

def rxStep (env : Station) (s : NetSpiState) (c : Submit) : NetSpiState :=
  (rx env c.outcomes c.skb s).2

/-- How often `dev_queue_xmit` gets the skb at `q`. -/
def queuedOf (q : Addr) (queued : List (Addr × List Byte)) : Nat := queued.countP (·.1 == q)

/-- What a call adds to the log and to the queue. -/
structure Added (env : Station) (s : NetSpiState) (c : Submit) (log : List (MemEvent Via))
    (queued : List (Addr × List Byte)) : Prop where
  log : (rxStep env s c).mem.log = log ++ s.mem.log
  queued : (rxStep env s c).queued = queued ++ s.queued

/-- The buffers that a call gets itself: the sample is freed once, the new skb is
handed to `dev_queue_xmit` once and not freed besides, and nothing is used that is
not there. -/
structure OwnReturned (s : NetSpiState) (c : Submit) (log : List (MemEvent Via))
    (queued : List (Addr × List Byte)) : Prop where
  live : UsesLive log
  sample : ∀ p, Transfers c.outcomes s p → freesOf p log = 1
  newSkb : ∀ p q, Transfers c.outcomes s p → AllocsSkb c.outcomes s p q →
    queuedOf q queued = 1 ∧ freesOf q log = 1

/-- The call gives its own buffers back, and leaves the heap as it was. -/
def OwnMeets (env : Station) (s : NetSpiState) (c : Submit) : Prop :=
  (rxStep env s c).mem.heap = s.mem.heap ∧
    ∃ log queued, Added env s c log queued ∧ OwnReturned s c log queued

/-- The call gives its own buffers back, and when its answer says that the
submitted skb was consumed, that skb was freed or passed on once. -/
def CallMeets (env : Station) (s : NetSpiState) (c : Submit) : Prop :=
  ∃ log queued, Added env s c log queued ∧ OwnReturned s c log queued ∧
    ((rx env c.outcomes c.skb s).1 < NET_XMIT_MASK → freesOf c.skb log = 1)

/-- What holds of every call: it gives its own buffers back, says that the skb was
consumed, and does not touch a skb that is there. -/
structure Accounted (env : Station) (s : NetSpiState) (c : Submit) : Prop where
  own : OwnMeets env s c
  consumed : (rx env c.outcomes c.skb s).1 < NET_XMIT_MASK
  untouched : (s.mem.heap c.skb).isSome → ∀ log queued, Added env s c log queued →
    freesOf c.skb log = 0

/-- The log that a call adds is determined by the state after it. -/
theorem Added.log_eq {env : Station} {s : NetSpiState} {c : Submit} {log log' : List (MemEvent Via)}
    {queued queued' : List (Addr × List Byte)} (h : Added env s c log queued)
    (h' : Added env s c log' queued') : log = log' :=
  List.append_cancel_right (h.log.symm.trans h'.log)

section

variable {env : Station} {s : NetSpiState} {c : Submit}

theorem accounted_noData (h : ∀ p, ¬ Transfers c.outcomes s p) : Accounted env s c := by
  have hrx := rx_noData env c.skb h
  have hadded : Added env s c [] [] := by constructor <;> simp [rxStep, hrx]
  refine ⟨⟨by simp [rxStep, hrx], [], [], hadded, ?_⟩, by rw [hrx]; exact drop_consumed,
    fun _ log _ hlog => ?_⟩
  · exact ⟨usesLive_nil, fun p hp => absurd hp (h p), fun p _ hp => absurd hp (h p)⟩
  · rw [hlog.log_eq hadded, freesOf_nil]

/-- A fresh address is not that of a skb that is there. -/
theorem ne_of_gives {place : Option Addr} {p : Addr} (h : s.mem.Gives place p)
    (hlive : (s.mem.heap c.skb).isSome) : p ≠ c.skb := by
  rintro rfl
  rw [h.2] at hlive
  cases hlive

theorem accounted_noSkb {p : Addr} (h : Transfers c.outcomes s p)
    (hfail : ∀ q, ¬ AllocsSkb c.outcomes s p q) : Accounted env s c := by
  have hrx := rx_noSkb env c.skb h hfail
  have hadded : Added env s c [.free p true, .use .spiData p 0 4 (some 16), .alloc p 16] [] := by
    constructor <;> simp [rxStep, hrx]
  refine ⟨⟨by simp [rxStep, hrx], _, _, hadded, ?_⟩, by rw [hrx]; exact drop_consumed,
    fun hlive log _ hlog => ?_⟩
  · refine ⟨by simp, fun p' hp' => ?_, fun p' q hp' hq => ?_⟩
    · simp [h.unique hp']
    · obtain rfl := h.unique hp'
      exact absurd hq (hfail q)
  · rw [hlog.log_eq hadded]
    simp [ne_of_gives h hlive]

theorem accounted_sent {p q : Addr} (h : Transfers c.outcomes s p)
    (hq : AllocsSkb c.outcomes s p q) : Accounted env s c := by
  have hrx := rx_sent env c.skb h hq
  have hadded : Added env s c [.free p true, .free q true, .use .newSkb q 0 58 (some 100),
      .alloc q 100, .use .spiData p 0 4 (some 16), .alloc p 16]
      [(q, sentFrame env c.outcomes)] := by
    constructor <;> simp [rxStep, hrx]
  have hne : p ≠ q := hq.2.symm
  refine ⟨⟨by simp [rxStep, hrx], _, _, hadded, ?_⟩, by rw [hrx]; exact success_consumed,
    fun hlive log _ hlog => ?_⟩
  · refine ⟨by simp, fun p' hp' => ?_, fun p' q' hp' hq' => ?_⟩
    · obtain rfl := h.unique hp'
      simp [hne.symm]
    · obtain rfl := h.unique hp'
      obtain rfl := hq.1.unique hq'.1
      simp [queuedOf, hne]
  · rw [hlog.log_eq hadded]
    simp [ne_of_gives h hlive, ne_of_gives hq.1 hlive]

theorem accounted (env : Station) (s : NetSpiState) (c : Submit) : Accounted env s c := by
  cases buffers c.outcomes s with
  | noData hnone => exact accounted_noData hnone
  | noSkb hp hfail => exact accounted_noSkb hp hfail
  | both hp hq => exact accounted_sent hp hq

/-- Every call that is handed a skb keeps it. -/
theorem not_callMeets (hlive : (s.mem.heap c.skb).isSome) : ¬ CallMeets env s c := by
  rintro ⟨log, queued, hadded, -, hconsumed⟩
  have hcall : Accounted env s c := accounted env s c
  have hone := hconsumed hcall.consumed
  rw [hcall.untouched hlive log queued hadded] at hone
  cases hone

end

/-- A sequence of skbs that are there is handled as it should be only when it is
empty. The sample buffers and the new skbs are given back in every sequence. -/
theorem submitted_iff (env : Station) (s : NetSpiState) (calls : List Submit)
    (hlive : ∀ c ∈ calls, (s.mem.heap c.skb).isSome) :
    (Run.Along (rxStep env) (CallMeets env) s calls ↔ calls = []) ∧
      Run.Along (rxStep env) (OwnMeets env) s calls ∧
      (Run.run (rxStep env) s calls).mem.heap = s.mem.heap := by
  refine ⟨⟨fun h => ?_, fun h => by rw [h]; trivial⟩, ?_, ?_⟩
  · cases calls with
    | nil => rfl
    | cons c calls => exact absurd h.1 (not_callMeets (hlive c List.mem_cons_self))
  · exact Run.along_of_step (I := fun _ => True)
      (fun t c _ => ⟨(accounted env t c).own, trivial⟩) trivial calls
  · refine Run.inv_run (I := fun t : NetSpiState => t.mem.heap = s.mem.heap) (fun t c h => ?_) rfl
      calls
    rw [(accounted env t c).own.1, h]

theorem submitted_warm :
    (Run.Along (rxStep station) (CallMeets station) oneSkb [⟨3, warm⟩] ↔
        [(⟨3, warm⟩ : Submit)] = []) ∧
      Run.Along (rxStep station) (OwnMeets station) oneSkb [⟨3, warm⟩] ∧
      (Run.run (rxStep station) oneSkb [⟨3, warm⟩]).mem.heap = oneSkb.mem.heap := by
  refine submitted_iff station oneSkb _ fun c hc => ?_
  obtain rfl := List.mem_singleton.mp hc
  decide

/-- A call that works says that it has consumed the skb, which is still there. -/
theorem warm_kept :
    (rx station warm 3 oneSkb).1 = NET_RX_SUCCESS ∧
      (rxStep station oneSkb ⟨3, warm⟩).mem.heap 3 = some [] ∧
      ¬ CallMeets station oneSkb ⟨3, warm⟩ := by
  have hp : Transfers warm oneSkb 1 := ⟨rfl, rfl⟩
  have hq : AllocsSkb warm oneSkb 1 2 := ⟨⟨rfl, rfl⟩, by decide⟩
  have hrx := rx_sent station 3 hp hq
  refine ⟨by rw [hrx], ?_, not_callMeets (by decide)⟩
  unfold rxStep
  rw [hrx]
  rfl

end DeviceDrivers.NetSpi
