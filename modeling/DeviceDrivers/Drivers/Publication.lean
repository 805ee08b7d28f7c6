import DeviceDrivers.Kernel.MidLoad
import DeviceDrivers.Drivers.Ioctl
import DeviceDrivers.Drivers.Esp32

/-!
# The device node and the cdev behind it

The ioctl and the ESP32 driver create a device node in `/dev`. A user can try to
open it as soon as it is there, also in the middle of an init or an exit, and the
kernel looks for the cdev of its number. The results are about the tables: which
nodes and cdevs they hold in every state between two calls.

1. `etx_keeps`: the ioctl driver adds its cdev before the node and removes it
   after the node, so that its node always leads to its own functions.
2. `esp32_keeps`: the ESP32 driver does both the other way round. As long as
   `device_create` fails it has no node.
3. `nodes_served`: over all runs, the first is so without a condition, and the
   ESP32 driver's node is always served exactly when it never gets one.
-/

namespace DeviceDrivers.Publication

open MidSys

/-! ## Nodes and cdevs of one driver -/

/-- The tables have a cdev for the number of each device node of `m`. Its file
operations are `fops`, with the open handler of `m`. -/
def NodesServed (m : Module) (fops : FileOperations Module) (k : Kernel Module) : Prop :=
  ∀ n ∈ k.nodes, n.cls.owner = m →
    k.fopsOf n.dev = some fops ∧ (k.fopsOf n.dev).bind (·.slot .open) = some ⟨m, .open⟩

def NoNodes (m : Module) (k : Kernel Module) : Prop := ∀ n ∈ k.nodes, n.cls.owner ≠ m

/-- `n` is the one node of `m`. -/
def OneNode (m : Module) (n : Node Module) (k : Kernel Module) : Prop :=
  ∃ ns, k.nodes = n :: ns ∧ ∀ n' ∈ ns, n'.cls.owner ≠ m

variable {m : Module} {fops : FileOperations Module} {n : Node Module} {k : Kernel Module}

theorem NoNodes.served (h : NoNodes m k) : NodesServed m fops k :=
  fun n hn hown => absurd hown (h n hn)

theorem OneNode.served (h : OneNode m n k) (hfops : k.fopsOf n.dev = some fops)
    (hopen : fops.slot .open = some ⟨m, .open⟩) : NodesServed m fops k := by
  obtain ⟨ns, hnodes, hns⟩ := h
  intro n' hn' hown
  rw [hnodes] at hn'
  rcases List.mem_cons.mp hn' with rfl | hn'
  · rw [hfops]
    exact ⟨rfl, hopen⟩
  · exact absurd hown (hns n' hn')

theorem OneNode.delNode (h : OneNode m n k) : NoNodes m (k.delNode n.cls n.dev) := by
  obtain ⟨ns, hnodes, hns⟩ := h
  simpa [NoNodes, hnodes] using hns

/-! ## The ioctl driver -/

/-- The ioctl driver is loaded: its one node has its cdev's number. -/
def EtxOn (st : EtxStatics) (k : Kernel Module) : Prop :=
  ∃ dev, st = Ioctl.statics dev ∧ OneNode .etx ⟨st.devClass, dev, "etx_device"⟩ k ∧
    k.fopsOf dev = some Ioctl.fops

theorem etx_keeps : Keeps Ioctl.driver (fun _ _ _ => True) (NodesServed .etx Ioctl.fops)
    (NoNodes .etx) EtxOn where
  off k hk := hk.served
  on st k := by
    rintro ⟨dev, -, hnode, hfops⟩
    exact hnode.served hfops rfl
  init k hk := by
    -- Up to `device_create` there is no node; only its success has to show the cdev.
    refine ⟨hk.served, fun o _ => ?_⟩
    rcases k.allocRegion_cases o .etx 0 1 "etx_Dev" with ⟨e, halloc⟩ | ⟨major, _, _, halloc⟩
    · simp only [kcall, halloc]
      exact hk
    simp only [kcall, halloc]
    refine ⟨NoNodes.served hk, fun o _ => ?_⟩
    cases hcdev : o.cdevAdd with
    | some e =>
      simp only [kcall, hcdev, attempt_some]
      exact ⟨NoNodes.served hk, fun _ _ => hk⟩
    | none =>
      simp only [kcall, hcdev, attempt_none]
      refine ⟨NoNodes.served hk, fun o _ => ?_⟩
      cases hclass : o.classCreate with
      | some e =>
        simp only [kcall, hclass, attempt_some]
        exact ⟨NoNodes.served hk, fun _ _ => hk⟩
      | none =>
        simp only [kcall, hclass, attempt_none]
        refine ⟨NoNodes.served hk, fun o _ => ?_⟩
        cases hdevice : o.deviceCreate with
        | some e =>
          simp only [kcall, hdevice, attempt_some]
          exact ⟨NoNodes.served hk, fun _ _ => ⟨NoNodes.served hk, fun _ _ => hk⟩⟩
        | none =>
          simp only [kcall, hdevice, attempt_none]
          refine ⟨⟨major, 0⟩, rfl, ⟨_, rfl, hk⟩, ?_⟩
          simp [Kernel.fopsOf, Kernel.cdevOf, Cdev.covers, cdevInit]
  exit st k := by
    rintro ⟨dev, rfl, hnode, hfops⟩
    have hgone : NoNodes .etx (k.delNode (Ioctl.statics dev).devClass dev) := hnode.delNode
    refine ⟨hnode.served hfops rfl, fun _ _ => ?_⟩
    refine ⟨hgone.served, fun _ _ => ?_⟩
    refine ⟨NoNodes.served hgone, fun _ _ => ?_⟩
    exact ⟨NoNodes.served hgone, fun _ _ => hgone⟩

/-! ## The ESP32 driver -/

/-- No call creates a device of the ESP32 driver. -/
def NoDevice (c : KCall Module) (o : Outcomes Module) (_ : Kernel Module) : Prop :=
  ∀ cls dev name, c = .deviceCreate cls dev name → cls.owner = .esp32 → o.deviceCreate ≠ none

/-- The tables hold no node and no cdev of the ESP32 driver. -/
structure Absent (k : Kernel Module) : Prop where
  nodes : NoNodes .esp32 k
  cdevs : ∀ c ∈ k.cdevs, c.ops.driver ≠ .esp32

/-- An entry in another table changes nothing about it. -/
theorem Absent.congr {k k' : Kernel Module} (h : Absent k) (hnodes : k'.nodes = k.nodes)
    (hcdevs : k'.cdevs = k.cdevs) : Absent k' where
  nodes n hn := h.nodes n (hnodes ▸ hn)
  cdevs c hc := h.cdevs c (hcdevs ▸ hc)

theorem esp32_keeps : Keeps Esp32.driver NoDevice Absent Absent (fun _ _ => False) where
  off k hk := hk
  on st k hfalse := hfalse.elim
  init k hk := by
    refine ⟨hk, fun o _ => ?_⟩
    rcases k.allocRegion_cases o .esp32 0 1 Esp32.driverName with
      ⟨e, halloc⟩ | ⟨major, _, _, halloc⟩
    · simp only [kcall, halloc]
      exact hk
    simp only [kcall, halloc]
    refine ⟨hk.congr rfl rfl, fun o _ => ?_⟩
    cases hclass : o.classCreate with
    | some e =>
      simp only [kcall, hclass, attempt_some]
      exact ⟨hk.congr rfl rfl, fun _ _ => hk.congr rfl rfl⟩
    | none =>
      simp only [kcall, hclass, attempt_none]
      refine ⟨hk.congr rfl rfl, fun o hG => ?_⟩
      cases hdevice : o.deviceCreate with
      | none => exact absurd hdevice (hG _ _ _ rfl rfl)
      | some e =>
        simp only [kcall, hdevice, attempt_some]
        exact ⟨hk.congr rfl rfl, fun _ _ => ⟨hk.congr rfl rfl, fun _ _ => hk.congr rfl rfl⟩⟩
  exit st k hfalse := hfalse.elim

/-- A node of the ESP32 driver comes before its cdev. -/
theorem not_served_of_device {k : Kernel Module} (hk : Absent k) {c : KCall Module}
    {o : Outcomes Module} (hc : ¬ NoDevice c o k) :
    ¬ NodesServed .esp32 Esp32.esp32Fops (kcall o c k).2 := by
  simp only [NoDevice, not_forall, not_not] at hc
  obtain ⟨cls, dev, name, rfl, hown, hdevice⟩ := hc
  intro hserved
  simp only [kcall, hdevice, attempt_none] at hserved
  obtain ⟨hfops, -⟩ := hserved ⟨cls, dev, name⟩ List.mem_cons_self hown
  obtain ⟨c, hmem, hops⟩ := Option.map_eq_some_iff.mp hfops
  exact hk.cdevs c (Kernel.mem_of_cdevOf hmem) (by rw [hops]; rfl)

/-! ## Runs -/

/-- In all runs in which the single calls of loads and unloads are interleaved
with opens and closes, from any tables of other registrations, the tables lead from
a device node of the ioctl driver to that driver's functions whenever it is there. For
the ESP32 driver this is so in a run if and only if no `device_create` of its
init succeeds. -/
theorem nodes_served (k₀ : Kernel Module) (acts : List (MidAct Module)) :
    (k₀.Foreign .etx →
      Run.Along (step Ioctl.driver)
        (fun s a => NodesServed .etx Ioctl.fops (s.step Ioctl.driver a).kernel)
        (boot k₀) acts) ∧
    (k₀.Foreign .esp32 →
      (Run.Along (step Esp32.driver)
          (fun s a => NodesServed .esp32 Esp32.esp32Fops (s.step Esp32.driver a).kernel)
          (boot k₀) acts ↔
        Run.Along (step Esp32.driver) (CallsWell NoDevice) (boot k₀) acts)) := by
  constructor
  · intro hk
    have hboot : Published (fun _ _ _ => True) (NodesServed .etx Ioctl.fops) (NoNodes .etx) EtxOn
        (boot k₀ : MidSys Module EtxStatics) := hk.nodes
    refine Run.along_of_step (fun s a h => ?_) hboot acts
    have hnext := published_step etx_keeps h (a := a) fun _ _ _ _ => trivial
    exact ⟨hnext.keeps etx_keeps, hnext⟩
  · intro hk
    have hboot : Published NoDevice Absent Absent (fun _ _ => False)
        (boot k₀ : MidSys Module Esp32Statics) := ⟨hk.nodes, fun c hc => (hk.cdevs c hc).1⟩
    refine Run.along_iff_of_inv (fun s a h ha => ?_) (fun s a h hserved => ?_) hboot acts
    · have hnext := published_step esp32_keeps h ha
      exact ⟨(hnext.keeps esp32_keeps).nodes.served, hnext⟩
    · rintro o c rfl hpending
      by_contra hdevice
      rw [step_of_pending hpending] at hserved
      exact not_served_of_device (h.keeps esp32_keeps) hdevice hserved

/-- `device_create` fails, should it be called. -/
def noDevice : Outcomes Module := { alloc := fun _ => .ok 240, deviceCreate := some ENOMEM }

theorem callsWell_noDevice (k₀ : Kernel Module) {acts : List (MidAct Module)}
    (h : ∀ a ∈ acts, ∀ o, a = .call o → o = noDevice) :
    Run.Along (step Esp32.driver) (CallsWell NoDevice) (boot k₀) acts := by
  refine Run.along_of_inv (I := fun _ => True) (fun s a _ ha => ⟨?_, trivial⟩) trivial
    (Run.along_const.mpr h)
  intro o c hcall _ cls dev name _ _
  rw [ha o hcall]
  decide

/-- Two runs on the empty tables: a whole load and unload of the ioctl driver,
and a load of the ESP32 driver in which `device_create` fails. -/
theorem nodes_served_runs :
    let o : Outcomes Module := { alloc := fun _ => .ok 240 }
    Run.Along (step Ioctl.driver)
      (fun s a => NodesServed .etx Ioctl.fops (s.step Ioctl.driver a).kernel) (boot {})
      (.insmod :: List.replicate 5 (.call o) ++ .rmmod :: List.replicate 5 (.call o)) ∧
    Run.Along (step Esp32.driver)
      (fun s a => NodesServed .esp32 Esp32.esp32Fops (s.step Esp32.driver a).kernel) (boot {})
      (.insmod :: List.replicate 6 (.call noDevice)) := by
  intro o
  refine ⟨(nodes_served {} _).1 (Kernel.foreign_empty _),
    ((nodes_served {} _).2 (Kernel.foreign_empty _)).mpr (callsWell_noDevice {} ?_)⟩
  rintro a ha o rfl
  simpa using ha

/-- After `device_create` of the ESP32 init the node is there, and an open of it
finds no cdev. -/
theorem esp32_node_before_cdev :
    let o : Outcomes Module := { alloc := fun _ => .ok 240 }
    let acts : List (MidAct Module) := [.insmod, .call o, .call o, .call o]
    let k := (Run.run (step Esp32.driver) (boot {}) acts).kernel
    k.nodes = [⟨Esp32.esp32Class, ⟨240, 0⟩, "esp32_wifi"⟩] ∧ k.fopsOf ⟨240, 0⟩ = none ∧
    ¬ Run.Along (step Esp32.driver)
      (fun s a => NodesServed .esp32 Esp32.esp32Fops (s.step Esp32.driver a).kernel)
      (boot {}) acts := by
  intro o acts k
  refine ⟨by decide, by decide, fun h => ?_⟩
  have hserved : NodesServed .esp32 Esp32.esp32Fops k := h.2.2.2.1
  obtain ⟨hfops, -⟩ := hserved ⟨Esp32.esp32Class, ⟨240, 0⟩, "esp32_wifi"⟩ (by decide) rfl
  revert hfops
  decide

end DeviceDrivers.Publication
