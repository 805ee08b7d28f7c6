import DeviceDrivers.Lib.CallProg
import DeviceDrivers.Lib.Headers
import DeviceDrivers.User.Process

/-!
# Receiving and printing

`main` of `Uart_userSpace_v1_1.c`, `Usb_userSpace_test_v1_1.c`, `Wi-fi_userSpace.c`
and `MyCanUserSpace.c`. Each reads from its device into a local buffer and prints
the buffer with `%s`.

This file proves the following.
* What each program prints is the string at the start of its buffer, which holds the
  delivery and old bytes behind it (`run_uart`, `run_usb`, `run_wiFi`, `run_can`).
* It is the payload, found in the buffer, exactly when the payload or the byte behind
  it ends the string there. It is the same on all memories exactly when what the
  delivery and the program have put into the buffer ends it (`text_iff`).
* Only the Wi-Fi program ends the string itself. The others print old memory for some
  deliveries, or scan past the buffer (`text_wrong`).
-/

namespace DeviceDrivers.User.Receive

/-! ## Source -/

/-- The memory of the buffer before `main` sets any of it, and what can be read
behind the buffer. -/
structure Memory where
  old : Nat → Byte
  after : List Byte

/-- `struct can_frame`. `pad` is what lies between the length and the data. -/
structure CanFrame where
  canId : BitVec 32
  canDlc : Byte
  pad : Fin 3 → Byte
  data : Fin 8 → Byte

def CanFrame.layout : Layout CanFrame where
  size := 16
  encode f := le32 f.canId ++ [f.canDlc] ++ List.ofFn f.pad ++ List.ofFn f.data
  decode bs :=
    { canId := ofLe32 (byteAt bs 0) (byteAt bs 1) (byteAt bs 2) (byteAt bs 3)
      canDlc := byteAt bs 4
      pad := fun i => byteAt bs (5 + i)
      data := fun i => byteAt bs (8 + i) }
  length_encode _ := rfl
  decode_encode := by
    rintro ⟨canId, canDlc, pad, data⟩
    rw [CanFrame.mk.injEq]
    refine ⟨ofLe32_le32 canId, rfl, funext fun i => ?_, funext fun i => ?_⟩
    · match i with
      | 0 | 1 | 2 => rfl
    · match i with
      | 0 | 1 | 2 | 3 | 4 | 5 | 6 | 7 => rfl
  encode_decode bs h := by
    rw [le32_ofLe32]
    exact map_byteAt_range h

/-- The data of a frame as a buffer. -/
def CanFrame.buffer (f : CanFrame) : List Byte := List.ofFn f.data

@[simp] theorem CanFrame.length_buffer (f : CanFrame) : f.buffer.length = 8 := List.length_ofFn

inductive UserCall
  | openDev (path : String)
  | socketCan
  | siocgifindex (fd : Int) (ifrName : String)
  | bindCan (fd : Int) (ifindex : Nat)
  | setSpeed (fd : Int) (ospeed : Nat)
  | write (fd : Int) (bs : List Byte)
  | read (fd : Int) (n : Nat)
  | close (fd : Int)
  | perror (msg : String)
  | printf (args : List Arg)

@[reducible] def UserCall.Res : UserCall → Type
  | openDev _ | socketCan | bindCan .. | write .. => Int
  | siocgifindex .. => Nat
  | read .. => Int × List Byte
  | _ => Unit

abbrev UserProg : Type → Type := Prog UserCall UserCall.Res

@[simp] def openDev (path : String) : UserProg Int := .call (.openDev path) .ret
@[simp] def socketCan : UserProg Int := .call .socketCan .ret
@[simp] def siocgifindex (fd : Int) (ifrName : String) : UserProg Nat :=
  .call (.siocgifindex fd ifrName) .ret
@[simp] def bindCan (fd : Int) (ifindex : Nat) : UserProg Int := .call (.bindCan fd ifindex) .ret
@[simp] def setSpeed (fd : Int) (ospeed : Nat) : UserProg Unit := .call (.setSpeed fd ospeed) .ret
@[simp] def write (fd : Int) (bs : List Byte) : UserProg Int := .call (.write fd bs) .ret
@[simp] def read (fd : Int) (n : Nat) : UserProg (Int × List Byte) := .call (.read fd n) .ret
@[simp] def close (fd : Int) : UserProg Unit := .call (.close fd) .ret
@[simp] def perror (msg : String) : UserProg Unit := .call (.perror msg) .ret
@[simp] def printf (args : List Arg) : UserProg Unit := .call (.printf args) .ret

/-- A local buffer of `n` bytes. -/
def Memory.buffer (m : Memory) (n : Nat) : List Byte := (List.range n).map m.old

/-- `strcpy`. -/
def strcpy (buf : List Byte) (s : String) : List Byte := writeAt buf 0 (ascii s ++ [NUL])

/-- The constant for 9600 baud is the number 13. -/
def B9600 : Nat := 13

def uartMain (m : Memory) : UserProg Int := do
  let buffer := m.buffer 256
  let uartFd ← openDev "/dev/ttyS0"
  if uartFd = -1 then
    perror "Error opening UART device"
    return 1
  else
  setSpeed uartFd B9600
  let (bytesRead, bs) ← read uartFd 256
  let buffer := writeAt buffer 0 bs
  if bytesRead = -1 then
    perror "Error reading from UART"
    close uartFd
    return 1
  else
  printf [.text "Received ", .dec bytesRead, .text " bytes: ", .str (buffer ++ m.after),
    .text "\n"]
  let bytesWritten ← write uartFd (ascii "Hello UART!" ++ [NUL])
  if bytesWritten = -1 then
    perror "Error writing to UART"
    close uartFd
    return 1
  else
  close uartFd
  return 0

def usbMain (m : Memory) : UserProg Int := do
  let buf := m.buffer 64
  let usbFd ← openDev "/dev/bus/usb/001/002"
  if usbFd < 0 then
    perror "Failed to open USB device file"
    return 1
  else
  let buf := strcpy buf "Hello USB device!"
  if (← write usbFd (buf.take ((cut buf).length + 1))) < 0 then
    perror "Failed to write to USB device"
    close usbFd
    return 1
  else
  let (ret, bs) ← read usbFd 64
  let buf := writeAt buf 0 bs
  if ret < 0 then
    perror "Failed to read from USB device"
    close usbFd
    return 1
  else
  printf [.text "Received data: ", .str (buf ++ m.after), .text "\n"]
  close usbFd
  return 0

def wiFiMain (m : Memory) : UserProg Int := do
  let buffer := m.buffer 256
  let fd ← openDev "/dev/myWi-Fi"
  if fd < 0 then
    perror "Failed to open device file"
    return -1
  else
  if (← write fd (ascii "AT\r\n")) < 0 then
    perror "Failed to write to device"
    close fd
    return -1
  else
  let (numBytes, bs) ← read fd (256 - 1)
  let buffer := writeAt buffer 0 bs
  if numBytes < 0 then
    perror "Failed to read from device"
    close fd
    return -1
  else
  let buffer := buffer.set numBytes.toNat NUL
  printf [.text "Received from device: ", .str (buffer ++ m.after), .text "\n"]
  close fd
  return 0

def canMain (m : Memory) : UserProg Int := do
  let frame := CanFrame.layout.decode (m.buffer 16)
  let s ← socketCan
  if s < 0 then
    perror "Socket creation failed"
    return 1
  else
  let ifindex ← siocgifindex s "can0"
  if (← bindCan s ifindex) < 0 then
    perror "Bind failed"
    close s
    return 1
  else
  let frame : CanFrame := { frame with
    canId := 0x123
    canDlc := 8
    data := fun i => byteAt (strcpy frame.buffer "Hello!") i }
  let nbytes ← write s (CanFrame.layout.encode frame)
  if nbytes ≠ 16 then
    perror "Write failed"
    close s
    return 1
  else
  printf [.text "Message sent: ", .str (frame.buffer ++ m.after), .text "\n"]
  let (nbytes, bs) ← read s 16
  let frame := CanFrame.layout.decode (writeAt (CanFrame.layout.encode frame) 0 bs)
  if nbytes < 0 then
    perror "Read failed"
    close s
    return 1
  else
  if nbytes = 0 then
    printf [.text "No data received\n"]
  else
    printf [.text "Message received: ", .str (frame.buffer ++ m.after), .text "\n"]
  close s
  return 0

/-! ## What the calls do -/

/-- What the calls of a program answer. `incoming` is what the device delivers, none
when the read fails. -/
structure UserOutcomes where
  fd : Int
  ifindex : Nat
  bound : Int
  written : Int
  incoming : Option (List Byte)

/-- A read gets no more bytes than it asks for. -/
@[simp] def usercall (o : UserOutcomes) : (c : UserCall) → Console → Except Fault c.Res × Console
  | .openDev _, s | .socketCan, s => (.ok o.fd, s)
  | .siocgifindex .., s => (.ok o.ifindex, s)
  | .bindCan .., s => (.ok o.bound, s)
  | .write .., s => (.ok o.written, s)
  | .read _ n, s =>
    match o.incoming with
    | none => (.ok (-1, []), s)
    | some bs => (.ok ((bs.take n).length, bs.take n), s)
  | .setSpeed .., s | .close _, s => (.ok (), s)
  | .perror msg, s => (.ok (), s.eprint msg)
  | .printf args, s => s.printf args

/-! ## The four paths -/

inductive Path
  | uart
  | usb
  | wiFi
  | can
deriving DecidableEq

namespace Path

def main : Path → Memory → UserProg Int
  | uart => uartMain
  | usb => usbMain
  | wiFi => wiFiMain
  | can => canMain

/-- The size that is passed to `read`. -/
def readSize : Path → Nat
  | uart => 256
  | usb => 64
  | wiFi => 255
  | can => 16

/-- The size of what is handed to `%s`: the buffer, or the data of the frame. -/
def room : Path → Nat
  | uart | wiFi => 256
  | usb => 64
  | can => 8

/-- The calls before the read work. -/
def Works (o : UserOutcomes) : Path → Prop
  | uart => o.fd ≠ -1
  | usb | wiFi => 0 ≤ o.fd ∧ 0 ≤ o.written
  | can => 0 ≤ o.fd ∧ 0 ≤ o.bound ∧ o.written = 16

end Path

/-- What a read delivers: no more than it asked for, and on the CAN bus a complete
frame of at most eight data bytes. -/
structure Delivery (p : Path) where
  bytes : List Byte
  fits : bytes.length ≤ p.readSize
  frame : p = .can →
    bytes.length = 16 ∧ (CanFrame.layout.decode bytes).canDlc.toNat ≤ 8

namespace Delivery

/-- The `can_dlc` of a delivered frame. -/
def dlc (bs : List Byte) : Nat := (CanFrame.layout.decode bs).canDlc.toNat

/-- The data of a delivered frame. -/
def data (bs : List Byte) : List Byte := (CanFrame.layout.decode bs).buffer

/-- What was sent to the program. -/
def payload : {p : Path} → Delivery p → List Byte
  | .uart, d | .usb, d | .wiFi, d => d.bytes
  | .can, d => (data d.bytes).take (dlc d.bytes)

/-- What the delivery and the program itself have put into the front of the room. -/
def known : {p : Path} → Delivery p → List Byte
  | .uart, d => d.bytes
  | .usb, d => d.bytes ++ (ascii "Hello USB device!" ++ [NUL]).drop d.bytes.length
  | .wiFi, d => d.bytes ++ [NUL]
  | .can, d => data d.bytes

end Delivery

section

variable (p : Path) (o : UserOutcomes) (m : Memory) (d : Delivery p)

def run : Except Fault Int × Console :=
  (p.main m).execE (usercall { o with incoming := some d.bytes }) Console.start

/-- The line for the received data, with the text that `%s` has made of it. -/
def line (text : List Byte) : List Piece :=
  match p with
  | .uart => [.text "Received ", .dec d.bytes.length, .text " bytes: ", .str text, .text "\n"]
  | .usb => [.text "Received data: ", .str text, .text "\n"]
  | .wiFi => [.text "Received from device: ", .str text, .text "\n"]
  | .can => [.text "Message received: ", .str text, .text "\n"]

/-- The program prints `text` for the received data. -/
def Prints (text : List Byte) : Prop := .stdout (line p d text) ∈ (run p o m d).2.out

/-- No `%s` looks at a byte outside the buffer. -/
def ScansInside : Prop := ∀ n ∈ (run p o m d).2.scans, n ≤ p.room

/-- The room when it is printed, and what follows. -/
def shown : List Byte := d.known ++ (m.buffer p.room).drop d.known.length ++ m.after

end

/-! ### What the runs print -/

theorem length_buffer (m : Memory) (n : Nat) : (m.buffer n).length = n := by
  simp [Memory.buffer]

/-- A read into the buffer. -/
theorem writeAt_buffer (m : Memory) {n : Nat} {bs : List Byte} (h : bs.length ≤ n) :
    writeAt (m.buffer n) 0 bs = bs ++ (m.buffer n).drop bs.length :=
  writeAt_zero (by rwa [length_buffer])

theorem run_uart {o : UserOutcomes} (h : Path.uart.Works o) (m : Memory) (d : Delivery .uart) :
    (∀ text, Prints .uart o m d text ↔ cString (shown .uart m d) = some text) ∧
      (run .uart o m d).2.scans = [scanned (shown .uart m d)] := by
  have hfits : d.bytes.length ≤ 256 := d.fits
  have htake : d.bytes.take 256 = d.bytes := List.take_of_length_le hfits
  have hfd : o.fd ≠ -1 := h
  have hbuf : writeAt (m.buffer 256) 0 d.bytes ++ m.after = shown .uart m d := by
    rw [writeAt_buffer m hfits]
    rfl
  have hcount : ¬ (d.bytes.length : Int) = -1 := by omega
  cases hstr : cString (shown .uart m d) with
  | none =>
    simp [Prints, run, Path.main, uartMain, Prog.execE, hfd, htake, hbuf, hcount, Console.printf,
      convert, scansOf, hstr, Console.start]
  | some bs =>
    by_cases hw : o.written = -1
    · simp [Prints, line, run, Path.main, uartMain, Prog.execE, hfd, htake, hbuf, hcount,
        Console.printf, convert, scansOf, hstr, Console.start, hw, eq_comm]
    · simp [Prints, line, run, Path.main, uartMain, Prog.execE, hfd, htake, hbuf, hcount,
        Console.printf, convert, scansOf, hstr, Console.start, hw, eq_comm]

/-- The buffer of the USB program when the read is through. -/
theorem usb_buffer (m : Memory) (d : Delivery .usb) :
    writeAt (strcpy (m.buffer 64) "Hello USB device!") 0 d.bytes ++ m.after = shown .usb m d := by
  have hfits : d.bytes.length ≤ 64 := d.fits
  have hcopy : strcpy (m.buffer 64) "Hello USB device!" =
      (ascii "Hello USB device!" ++ [NUL]) ++ (m.buffer 64).drop 18 :=
    writeAt_buffer m (by decide)
  have hlen : (strcpy (m.buffer 64) "Hello USB device!").length = 64 := by
    rw [strcpy, length_writeAt, length_buffer]
  have hknown : d.known.length = 18 + (d.bytes.length - 18) := by
    simp only [Delivery.known, List.length_append, List.length_drop]
    show d.bytes.length + (18 - d.bytes.length) = 18 + (d.bytes.length - 18)
    omega
  rw [writeAt_zero (hfits.trans_eq hlen.symm), hcopy, List.drop_append, List.drop_drop, shown,
    hknown, ← List.append_assoc]
  rfl

theorem run_usb {o : UserOutcomes} (h : Path.usb.Works o) (m : Memory) (d : Delivery .usb) :
    (∀ text, Prints .usb o m d text ↔ cString (shown .usb m d) = some text) ∧
      (run .usb o m d).2.scans = [scanned (shown .usb m d)] := by
  have htake : d.bytes.take 64 = d.bytes := List.take_of_length_le d.fits
  have hfd : ¬ o.fd < 0 := Int.not_lt.mpr h.1
  have hw : ¬ o.written < 0 := Int.not_lt.mpr h.2
  have hcount : ¬ (d.bytes.length : Int) < 0 := Int.not_lt.mpr (Int.natCast_nonneg _)
  cases hstr : cString (shown .usb m d) with
  | none =>
    simp [Prints, run, Path.main, usbMain, Prog.execE, hfd, hw, hcount, htake, usb_buffer,
      Console.printf, convert, scansOf, hstr, Console.start]
  | some bs =>
    simp [Prints, line, run, Path.main, usbMain, Prog.execE, hfd, hw, hcount, htake, usb_buffer,
      Console.printf, convert, scansOf, hstr, Console.start, eq_comm]

/-- The buffer of the Wi-Fi program with the NUL behind what was read. -/
theorem wiFi_buffer (m : Memory) (d : Delivery .wiFi) :
    (writeAt (m.buffer 256) 0 d.bytes).set d.bytes.length NUL ++ m.after = shown .wiFi m d := by
  have hfits : d.bytes.length ≤ 255 := d.fits
  have hlt : d.bytes.length < (m.buffer 256).length := by
    rw [length_buffer]
    exact Nat.lt_succ_of_le hfits
  rw [writeAt_zero (Nat.le_of_lt hlt), List.set_append_right _ _ (Nat.le_refl _), Nat.sub_self,
    List.drop_eq_getElem_cons hlt, List.set_cons_zero]
  simp [shown, Delivery.known, Path.room]

theorem run_wiFi {o : UserOutcomes} (h : Path.wiFi.Works o) (m : Memory) (d : Delivery .wiFi) :
    (∀ text, Prints .wiFi o m d text ↔ cString (shown .wiFi m d) = some text) ∧
      (run .wiFi o m d).2.scans = [scanned (shown .wiFi m d)] := by
  have htake : d.bytes.take 255 = d.bytes := List.take_of_length_le d.fits
  have hfd : ¬ o.fd < 0 := Int.not_lt.mpr h.1
  have hw : ¬ o.written < 0 := Int.not_lt.mpr h.2
  have hcount : ¬ (d.bytes.length : Int) < 0 := Int.not_lt.mpr (Int.natCast_nonneg _)
  cases hstr : cString (shown .wiFi m d) with
  | none =>
    simp [Prints, run, Path.main, wiFiMain, Prog.execE, hfd, hw, hcount, htake, wiFi_buffer,
      Console.printf, convert, scansOf, hstr, Console.start]
  | some bs =>
    simp [Prints, line, run, Path.main, wiFiMain, Prog.execE, hfd, hw, hcount, htake, wiFi_buffer,
      Console.printf, convert, scansOf, hstr, Console.start, eq_comm]

@[simp] theorem Delivery.length_data (bs : List Byte) : (Delivery.data bs).length = 8 :=
  CanFrame.length_buffer _

/-- The data of the frame fills the room. -/
theorem shown_can (m : Memory) (d : Delivery .can) :
    shown .can m d = Delivery.data d.bytes ++ m.after := by
  have hrest : (m.buffer 8).drop (Delivery.data d.bytes).length = [] :=
    List.drop_eq_nil_of_le (by rw [length_buffer, Delivery.length_data])
  show Delivery.data d.bytes ++ (m.buffer 8).drop (Delivery.data d.bytes).length ++ m.after = _
  rw [hrest, List.append_nil]

/-- The data of the frame that the CAN program sends. -/
theorem sent_buffer (frame : CanFrame) (canId : BitVec 32) (canDlc : Byte) :
    CanFrame.buffer { frame with
      canId, canDlc, data := fun i => byteAt (strcpy frame.buffer "Hello!") i } =
        (ascii "Hello!" ++ [NUL]) ++ frame.buffer.drop 7 := by
  have hcopy : strcpy frame.buffer "Hello!" = (ascii "Hello!" ++ [NUL]) ++ frame.buffer.drop 7 :=
    writeAt_zero (show 7 ≤ frame.buffer.length by rw [CanFrame.length_buffer]; decide)
  have hlen : (strcpy frame.buffer "Hello!").length = 8 := by
    rw [strcpy, length_writeAt, CanFrame.length_buffer]
  rw [← hcopy]
  exact map_byteAt_range hlen

theorem run_can {o : UserOutcomes} (h : Path.can.Works o) (m : Memory) (d : Delivery .can) :
    (∀ text, Prints .can o m d text ↔ cString (shown .can m d) = some text) ∧
      (run .can o m d).2.scans = [scanned (shown .can m d), 7] := by
  obtain ⟨hlen, -⟩ := d.frame rfl
  have htake : d.bytes.take 16 = d.bytes := List.take_of_length_le d.fits
  obtain ⟨hfd, hbound, hw⟩ := h
  have hfd : ¬ o.fd < 0 := Int.not_lt.mpr hfd
  have hbound : ¬ o.bound < 0 := Int.not_lt.mpr hbound
  have hread : ∀ f : CanFrame, writeAt (CanFrame.layout.encode f) 0 d.bytes = d.bytes := by
    intro f
    exact writeAt_all ((CanFrame.layout.length_encode f).trans hlen.symm)
  have hhello : ∀ rest, cString (ascii "Hello!" ++ NUL :: rest) = some (ascii "Hello!") := by
    intro rest
    rw [cString_of_mem (by simp), cut_append_of_not_mem (by decide), cut_cons_NUL, List.append_nil]
  have hscan : ∀ rest, scanned (ascii "Hello!" ++ NUL :: rest) = 7 := by
    intro rest
    rw [scanned, cut_append_of_not_mem (by decide), cut_cons_NUL]
    rfl
  have hbuf : (CanFrame.layout.decode d.bytes).buffer ++ m.after = shown .can m d :=
    (shown_can m d).symm
  cases hstr : cString (shown .can m d) with
  | none =>
    simp [Prints, line, run, Path.main, canMain, Prog.execE, hfd, hbound, hw, hlen, htake, hread,
      hbuf, Console.printf, convert, scansOf, hstr, Console.start, sent_buffer, hhello, hscan]
  | some bs =>
    simp [Prints, line, run, Path.main, canMain, Prog.execE, hfd, hbound, hw, hlen, htake, hread,
      hbuf, Console.printf, convert, scansOf, hstr, Console.start, sent_buffer, hhello, hscan,
      eq_comm]

theorem prints_iff {p : Path} {o : UserOutcomes} (h : p.Works o) (m : Memory) (d : Delivery p)
    (text : List Byte) : Prints p o m d text ↔ cString (shown p m d) = some text := by
  cases p with
  | uart => exact (run_uart h m d).1 text
  | usb => exact (run_usb h m d).1 text
  | wiFi => exact (run_wiFi h m d).1 text
  | can => exact (run_can h m d).1 text

theorem scansInside_iff {p : Path} {o : UserOutcomes} (h : p.Works o) (m : Memory)
    (d : Delivery p) : ScansInside p o m d ↔ scanned (shown p m d) ≤ p.room := by
  unfold ScansInside
  cases p with
  | uart => simp [(run_uart h m d).2]
  | usb => simp [(run_usb h m d).2]
  | wiFi => simp [(run_wiFi h m d).2]
  | can => simp [(run_can h m d).2, Path.room]

/-! ## What a received text depends on -/

/-- The payload has a NUL, or the byte that lies behind it in the buffer is one: of the
old contents, of the text that was sent before, or of the rest of the frame. -/
def Terminated : (p : Path) → Memory → Delivery p → Prop
  | .uart, m, d => NUL ∈ d.bytes ∨ (d.bytes.length < 256 ∧ m.old d.bytes.length = NUL)
  | .usb, m, d => NUL ∈ d.bytes ∨ d.bytes.length = 17 ∨
      (17 < d.bytes.length ∧ d.bytes.length < 64 ∧ m.old d.bytes.length = NUL)
  | .wiFi, _, _ => True
  | .can, _, d => NUL ∈ d.payload ∨ (Delivery.dlc d.bytes < 8 ∧
      byteAt d.bytes (8 + Delivery.dlc d.bytes) = NUL)

/-- The text ends in what the delivery and the program have put into the buffer. -/
def Determined : (p : Path) → Delivery p → Prop
  | .uart, d => NUL ∈ d.bytes
  | .usb, d => NUL ∈ d.bytes ∨ d.bytes.length ≤ 17
  | .wiFi, _ => True
  | .can, d => NUL ∈ Delivery.data d.bytes

/-- The byte of the buffer at `n`. -/
theorem head_drop_buffer (m : Memory) (n k : Nat) :
    ((m.buffer k).drop n).head? = some NUL ↔ n < k ∧ m.old n = NUL := by
  rw [List.head?_drop]
  rcases Nat.lt_or_ge n k with hlt | hge
  · simp [Memory.buffer, hlt]
  · simp [Memory.buffer, Nat.not_lt.mpr hge]

/-- The byte behind `n` bytes over the text that was sent before. -/
theorem head_drop_hello (n : Nat) (rest : List Byte) :
    ((ascii "Hello USB device!" ++ [NUL]).drop n ++ rest).head? = some NUL ↔
      n = 17 ∨ (17 < n ∧ rest.head? = some NUL) := by
  have hhello : ∀ k < 17, ((ascii "Hello USB device!" ++ [NUL]).drop k).head? ≠ none ∧
      ((ascii "Hello USB device!" ++ [NUL]).drop k).head? ≠ some NUL := by decide
  rw [List.head?_append]
  rcases Nat.lt_trichotomy n 17 with hlt | rfl | hgt
  · obtain ⟨hsome, hne⟩ := hhello n hlt
    obtain ⟨b, hb⟩ := Option.ne_none_iff_exists'.mp hsome
    rw [hb] at hne ⊢
    refine iff_of_false hne ?_
    omega
  · exact iff_of_true rfl (.inl rfl)
  · have hnil : (ascii "Hello USB device!" ++ [NUL]).drop n = [] := List.drop_eq_nil_of_le hgt
    rw [hnil]
    simp [hgt, Nat.ne_of_gt hgt]

theorem Delivery.data_getElem? (bs : List Byte) {i : Nat} (h : i < 8) :
    (Delivery.data bs)[i]? = some (byteAt bs (8 + i)) := by
  rw [Delivery.data, CanFrame.buffer, List.getElem?_ofFn, dif_pos h]
  rfl

/-- What lies behind the payload in the room. -/
def behind : (p : Path) → Memory → Delivery p → List Byte
  | .uart, m, d => (m.buffer 256).drop d.bytes.length
  | .usb, m, d =>
    (ascii "Hello USB device!" ++ [NUL]).drop d.bytes.length ++ (m.buffer 64).drop d.known.length
  | .wiFi, m, d => NUL :: (m.buffer 256).drop (d.bytes.length + 1)
  | .can, _, d => (Delivery.data d.bytes).drop (Delivery.dlc d.bytes)

theorem length_known_usb (d : Delivery .usb) :
    d.known.length = d.bytes.length + (18 - d.bytes.length) := by
  rw [Delivery.known, List.length_append, List.length_drop]
  rfl

theorem shown_eq (p : Path) (m : Memory) (d : Delivery p) :
    shown p m d = d.payload ++ behind p m d ++ m.after := by
  cases p with
  | uart => rfl
  | usb =>
    show (d.bytes ++ _) ++ _ ++ _ = d.bytes ++ (_ ++ _) ++ _
    rw [List.append_assoc d.bytes]
    rfl
  | wiFi => simp [shown, behind, Delivery.known, Delivery.payload, Path.room]
  | can =>
    rw [shown_can]
    show _ = (Delivery.data d.bytes).take _ ++ (Delivery.data d.bytes).drop _ ++ m.after
    rw [List.take_append_drop]

/-- The payload and what lies behind it fill the room. -/
theorem length_payload_behind (p : Path) (m : Memory) (d : Delivery p) :
    (d.payload ++ behind p m d).length = p.room := by
  cases p with
  | uart =>
    have hfits : d.bytes.length ≤ 256 := d.fits
    show (d.bytes ++ (m.buffer 256).drop _).length = 256
    rw [List.length_append, List.length_drop, length_buffer]
    exact Nat.add_sub_of_le hfits
  | usb =>
    have hfits : d.bytes.length ≤ 64 := d.fits
    have hknown : d.known.length ≤ 64 := by
      rw [length_known_usb]
      omega
    show (d.bytes ++ (_ ++ _)).length = 64
    rw [← List.append_assoc, List.length_append, List.length_drop, length_buffer]
    exact Nat.add_sub_of_le hknown
  | wiFi =>
    have hfits : d.bytes.length + 1 ≤ 256 := Nat.succ_le_succ d.fits
    show (d.bytes ++ NUL :: _).length = 256
    rw [List.append_cons, List.length_append, List.length_drop, length_buffer,
      List.length_append, List.length_singleton]
    exact Nat.add_sub_of_le hfits
  | can =>
    show ((Delivery.data d.bytes).take _ ++ (Delivery.data d.bytes).drop _).length = 8
    rw [List.take_append_drop, Delivery.length_data]

theorem terminated_iff (p : Path) (m : Memory) (d : Delivery p) :
    NUL ∈ d.payload ∨ (behind p m d).head? = some NUL ↔ Terminated p m d := by
  cases p with
  | uart =>
    rw [behind, head_drop_buffer]
    rfl
  | usb =>
    rw [behind, head_drop_hello, head_drop_buffer, length_known_usb]
    refine or_congr_right (or_congr_right (and_congr_right fun hgt => ?_))
    rw [Nat.sub_eq_zero_of_le hgt, Nat.add_zero]
  | wiFi => exact iff_of_true (.inr rfl) trivial
  | can =>
    refine or_congr_right ?_
    rw [behind, List.head?_drop]
    rcases Nat.lt_or_ge (Delivery.dlc d.bytes) 8 with hlt | hge
    · rw [Delivery.data_getElem? d.bytes hlt, Option.some.injEq]
      exact (and_iff_right hlt).symm
    · rw [List.getElem?_eq_none (Nat.le_trans (Nat.le_of_eq (Delivery.length_data _)) hge)]
      exact iff_of_false (by simp) fun h => Nat.not_lt.mpr hge h.1

theorem mem_known_iff (p : Path) (d : Delivery p) : NUL ∈ d.known ↔ Determined p d := by
  cases p with
  | uart => exact Iff.rfl
  | usb =>
    rw [Delivery.known, List.mem_append]
    refine or_congr_right ?_
    rcases Nat.lt_or_ge 17 d.bytes.length with hlt | hle
    · have hnil : (ascii "Hello USB device!" ++ [NUL]).drop d.bytes.length = [] :=
        List.drop_eq_nil_of_le hlt
      rw [hnil]
      exact iff_of_false List.not_mem_nil (Nat.not_le.mpr hlt)
    · rw [List.drop_append_of_le_length hle]
      exact iff_of_true (List.mem_append_right _ (List.mem_singleton_self NUL)) hle
  | wiFi => exact iff_of_true (List.mem_append_right _ (List.mem_singleton_self NUL)) trivial
  | can => exact Iff.rfl

theorem prints_payload_iff {p : Path} {o : UserOutcomes} (h : p.Works o) (m : Memory)
    (d : Delivery p) :
    Prints p o m d (cut d.payload) ∧ ScansInside p o m d ↔ Terminated p m d := by
  rw [prints_iff h, scansInside_iff h, shown_eq, ← length_payload_behind p m d, ← terminated_iff]
  exact shows_iff d.payload (behind p m d) m.after

/-- The text is the same on all memories if it ends in what is known of the room. -/
theorem same_text_iff {p : Path} {o : UserOutcomes} (h : p.Works o) (d : Delivery p) :
    (∀ m m' text, Prints p o m d text ↔ Prints p o m' d text) ↔ Determined p d := by
  rw [← mem_known_iff]
  simp only [prints_iff h]
  constructor
  · intro hsame
    by_contra hnul
    -- A buffer without a NUL, and then one behind it, sooner or later.
    let ones : Nat → Byte := fun _ => 1
    have hones : NUL ∉ d.known ++ ((List.range p.room).map ones).drop d.known.length := by
      rw [List.mem_append]
      rintro (hknown | hdrop)
      · exact hnul hknown
      · obtain ⟨i, -, hi⟩ := List.mem_map.mp (List.mem_of_mem_drop hdrop)
        exact absurd hi (by decide)
    exact cString_differs hones (Option.ext fun text => hsame ⟨ones, [NUL]⟩ ⟨ones, [1, NUL]⟩ text)
  · intro hnul m m' text
    rw [shown, shown, List.append_assoc, List.append_assoc, cString_append hnul,
      cString_append hnul]

/-- The text that a program prints for a delivery is the payload up to its first NUL,
and is found in the buffer, exactly when the payload or the byte behind it ends it
there. It is the same on all memories exactly when it ends in what the delivery and
the program have put into the buffer. -/
theorem text_iff {p : Path} {o : UserOutcomes} (h : p.Works o) (m : Memory) (d : Delivery p) :
    (Prints p o m d (cut d.payload) ∧ ScansInside p o m d ↔ Terminated p m d) ∧
      ((∀ m m' text, Prints p o m d text ↔ Prints p o m' d text) ↔ Determined p d) :=
  ⟨prints_payload_iff h m d, same_text_iff h d⟩

/-- All calls work. -/
def works : UserOutcomes := ⟨3, 1, 0, 16, none⟩

/-- A UART delivery that fills the buffer. -/
def fullBuffer : Delivery .uart :=
  ⟨List.replicate 256 65, Nat.le_of_eq List.length_replicate, nofun⟩

/-- A USB delivery that is one byte longer than the text that was sent before. -/
def eighteen : Delivery .usb := ⟨List.replicate 18 65, by decide, nofun⟩

/-- A frame of two data bytes, with two more in the rest of the frame. -/
def twoOfFour : Delivery .can where
  bytes := [0x23, 1, 0, 0, 2, 0, 0, 0, 65, 66, 67, 68, 0, 0, 0, 0]
  fits := by decide
  frame _ := by decide

/-- A buffer of ones, and a NUL behind it. -/
def ones : Memory := ⟨fun _ => 1, [NUL]⟩

theorem text_fullBuffer :
    (Prints .uart works ones fullBuffer (cut fullBuffer.payload) ∧
        ScansInside .uart works ones fullBuffer ↔ Terminated .uart ones fullBuffer) ∧
      ((∀ m m' text, Prints .uart works m fullBuffer text ↔
          Prints .uart works m' fullBuffer text) ↔ Determined .uart fullBuffer) :=
  text_iff (p := .uart) (by unfold Path.Works; decide) ones fullBuffer

/-- The scan leaves the full buffer, the USB program prints old memory behind the 18
bytes, and the CAN program prints four bytes for two. -/
theorem text_wrong :
    ¬ (Prints .uart works ones fullBuffer (cut fullBuffer.payload) ∧
        ScansInside .uart works ones fullBuffer) ∧
      (¬ Prints .usb works ones eighteen (cut eighteen.payload) ∧
        ¬ ∀ m m' text, Prints .usb works m eighteen text ↔ Prints .usb works m' eighteen text) ∧
      (Prints .can works ones twoOfFour [65, 66, 67, 68] ∧ cut twoOfFour.payload = [65, 66]) := by
  refine ⟨?_, ⟨?_, ?_⟩, ?_, by decide⟩
  · rw [prints_payload_iff (p := .uart) (by unfold Path.Works; decide)]
    rintro (hnul | ⟨hlt, -⟩)
    · exact absurd (List.eq_of_mem_replicate hnul) (by decide)
    · exact absurd hlt (Nat.not_lt.mpr (Nat.le_of_eq List.length_replicate.symm))
  · rw [prints_iff (p := .usb) (by unfold Path.Works; decide)]
    decide
  · rw [same_text_iff (p := .usb) (by unfold Path.Works; decide)]
    unfold Determined
    decide
  · rw [prints_iff (p := .can) (by unfold Path.Works; decide)]
    decide

end DeviceDrivers.User.Receive
