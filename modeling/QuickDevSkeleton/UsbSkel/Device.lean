import QuickDevSkeleton.Foundations.Parties
import QuickDevSkeleton.Kernel.UserCopy

/-!
# The USB skeleton driver

`usb/usb-skeleton.c`: one device, the processes that have it open (each through a file of its own),
the completions of its urbs, and the USB core, which binds, resets and unbinds the interface. A
process stops wherever another party can run: at every lock, at every test of a field that is not
made under its lock, at every call that can sleep or fail. What it does between two stops is one
step here.

The steps are grouped as the source groups them, one function for each of its functions.
-/

namespace QuickDevSkeleton.UsbSkel

open Foundations

def ENOENT : ℤ := 2
def EINTR : ℤ := 4
def EAGAIN : ℤ := 11
def EPIPE : ℤ := 32
def ECONNRESET : ℤ := 104
def ESHUTDOWN : ℤ := 108
def ERESTARTSYS : ℤ := 512

def PAGE_SIZE : ℕ := 4096

def MAX_TRANSFER : ℕ := PAGE_SIZE - 512

def WRITES_IN_FLIGHT : ℕ := 8

/-! ### The calls -/

/-- What a call gives back: its value, and for a read the bytes that the value counts. -/
structure Reply where
  ret : ℤ
  data : List UInt8
  deriving DecidableEq

/-- A `read`: how many bytes, and whether the file is `O_NONBLOCK`. -/
structure ReadCall where
  count : ℕ
  nonblock : Bool
  deriving DecidableEq

/-- A `write` of `data`. -/
structure WriteCall where
  data : List UInt8
  nonblock : Bool
  deriving DecidableEq

/-- `min(count, (size_t)MAX_TRANSFER)` -/
def WriteCall.writesize (c : WriteCall) : ℕ := min c.data.length MAX_TRANSFER

/-- The bytes that `copy_from_user` is asked for. -/
def WriteCall.payload (c : WriteCall) : List UInt8 := c.data.take c.writesize

/-! ### The places of a process -/

inductive OpenPc where
  /-- `usb_open` holds `minor_rwsem`; at `usb_find_interface`. -/
  | find
  /-- At `usb_autopm_get_interface`. -/
  | autopm
  /-- At `kref_get`. -/
  | get
  deriving DecidableEq

inductive ReadPc where
  /-- At `mutex_lock_interruptible`. -/
  | lock
  /-- `io_mutex` is held from here to `exit`; at the test of `dev->interface`. -/
  | held
  /-- At the label `retry`. -/
  | retry
  /-- In `wait_event_interruptible`. -/
  | wait
  /-- At `rv = dev->errors`. -/
  | check
  /-- `rv` is negative; at `dev->errors = 0`. -/
  | clear (rv : ℤ)
  /-- At the test of `dev->bulk_in_filled`. -/
  | data
  /-- At the start of `skel_do_read_io`; `r` is the reply of the read, if it has one already. -/
  | prepare (count : ℕ) (r : Option Reply)
  /-- In `skel_do_read_io`, with `ongoing_read` set. -/
  | begun (count : ℕ) (r : Option Reply)
  /-- In `skel_do_read_io`, with the submission refused. -/
  | failed (rv : ℤ) (r : Option Reply)
  /-- At the label `exit`. -/
  | exit (r : Reply)
  deriving DecidableEq

inductive WritePc where
  /-- At `down_interruptible` or `down_trylock`. -/
  | down
  /-- At the section of `err_lock`. -/
  | errors
  /-- At `usb_alloc_urb`. -/
  | alloc
  /-- At `usb_alloc_coherent`. -/
  | buffer (urb : ℕ)
  /-- At `copy_from_user`. -/
  | copy (urb : ℕ)
  /-- At `mutex_lock`. -/
  | lock (urb : ℕ)
  /-- `io_mutex` is held; at the test of `dev->interface`. -/
  | held (urb : ℕ)
  /-- `io_mutex` is held; at `usb_submit_urb`. -/
  | submit (urb : ℕ)
  /-- At the `mutex_unlock` after the submission, which returned `retval`. -/
  | unlock (urb : ℕ) (retval : ℤ)
  /-- At the `dev_err` that names `dev->interface`. -/
  | report (urb : ℕ) (retval : ℤ)
  /-- At the last `usb_free_urb`. -/
  | free (urb : ℕ)
  /-- At the label `error_unanchor`. -/
  | unanchor (urb : ℕ) (retval : ℤ)
  /-- At the label `error`, with the locals `urb`, `buf` (null or not) and `retval`. -/
  | error (urb : Option ℕ) (buf : Bool) (retval : ℤ)
  /-- At `up`. -/
  | up (retval : ℤ)
  deriving DecidableEq

inductive FlushPc where
  /-- At `mutex_lock`. -/
  | lock
  /-- In `skel_draw_down`, until the anchor is empty. -/
  | drawAnchor
  /-- In `skel_draw_down`, at `usb_kill_urb`. -/
  | drawRead
  /-- At the section of `err_lock`. -/
  | errors
  /-- At `mutex_unlock`. -/
  | unlock (res : ℤ)
  deriving DecidableEq

inductive ReleasePc where
  /-- At `mutex_lock`. -/
  | lock
  /-- At the test of `dev->interface`. -/
  | held
  /-- At `mutex_unlock`. -/
  | unlock
  /-- At `kref_put`. -/
  | put
  deriving DecidableEq

/-- Where a process is. -/
inductive Pc where
  /-- The process has not opened the device, or has closed it. -/
  | closed
  | opening (pc : OpenPc)
  /-- The device is open; in no call. -/
  | idle
  | reading (c : ReadCall) (pc : ReadPc)
  /-- At the return of a `read`. -/
  | readRet (c : ReadCall) (r : Reply)
  | writing (c : WriteCall) (pc : WritePc)
  /-- At the return of a `write`. -/
  | writeRet (c : WriteCall) (ret : ℤ)
  /-- In `skel_flush`; `last`: the file is being closed. -/
  | flushing (last : Bool) (pc : FlushPc)
  | releasing (pc : ReleasePc)
  deriving DecidableEq

/-- What the USB core does with the interface. `probe` has succeeded. -/
inductive Hub where
  | bound
  /-- At the `mutex_lock` of `skel_pre_reset`. -/
  | preReset
  /-- `io_mutex` is held: in `skel_draw_down`, until the anchor is empty. -/
  | drawAnchor
  /-- `io_mutex` is held: in `skel_draw_down`, at `usb_kill_urb`. -/
  | drawRead
  /-- `io_mutex` is held, between `skel_pre_reset` and `skel_post_reset`. -/
  | reset
  /-- The core has disabled the endpoints; at the start of `skel_disconnect`. -/
  | disconnect
  /-- At `usb_deregister_dev`. -/
  | deregister
  /-- At `mutex_lock`. -/
  | lock
  /-- `io_mutex` is held; at `dev->interface = NULL`. -/
  | clear
  /-- `io_mutex` is held; at `mutex_unlock`. -/
  | unlock
  /-- At `usb_kill_anchored_urbs`. -/
  | kill
  /-- At `kref_put`. -/
  | put
  | gone
  deriving DecidableEq

/-! ### The state -/

/-- `struct usb_skel`, what the USB core keeps of the device and of its urbs, and what has happened
so far. -/
structure Skel where
  /-- `dev->interface` is not null. -/
  interface : Bool
  limit_sem : ℕ
  /-- The anchor: the urbs on it. -/
  submitted : List ℕ
  bulk_in_buffer : List UInt8
  bulk_in_size : ℕ
  bulk_in_filled : ℕ
  bulk_in_copied : ℕ
  errors : ℤ
  ongoing_read : Bool
  kref : ℕ
  io_mutex : Bool
  /-- How often `skel_delete` has run. -/
  deleted : ℕ
  /-- The `transfer_buffer_length` of `bulk_in_urb`, while the core has it. -/
  reading : Option ℕ
  /-- The write urbs that the core has, in the order of their submission. -/
  queue : List ℕ
  /-- The write urbs in their completion handler. -/
  giving : List ℕ
  /-- The references to a write urb; none: it is free memory. -/
  refs : ℕ → ℕ
  /-- The transfer buffer of a write urb. -/
  buf : ℕ → Option (List UInt8)
  /-- No urb has been allocated from here on. -/
  fresh : ℕ
  /-- The endpoints take submissions. -/
  enabled : Bool
  /-- The minor is registered, and the interface data is set. -/
  minor : Bool
  intfdata : Bool
  /-- The readers of `minor_rwsem`. -/
  openers : ℕ
  /-- The usage count of the interface's power management. -/
  pm_usage : ℕ
  hub : Hub
  /-- The bytes that completed reads have brought. -/
  arrived : List UInt8
  /-- The chunks that `copy_to_user` was asked for, and whether it succeeded. -/
  handed : List (Bool × List UInt8)
  /-- The payloads that the core has accepted. -/
  sent : List (List UInt8)
  /-- The payloads of the writes that have returned their size. -/
  written : List (List UInt8)
  /-- The errors that were stored in `errors`. -/
  posted : List ℤ

/-- What a process does next: it starts a call, takes its next step, takes it with the call it
makes there failing with `-e`, or receives a signal. -/
inductive Act where
  | «open»
  | read (c : ReadCall)
  | write (c : WriteCall)
  | flush
  | close
  | step
  | fault (e : ℕ)
  | signal

/-- What happens around the processes: `bulk_in_urb` completes with status `-st` and the bytes
`data`, a write urb is given back, its completion handler ends, and the core goes on. -/
inductive Env where
  | skel_read_bulk_callback (st : ℕ) (data : List UInt8)
  | giveback (urb : ℕ) (st : ℕ)
  | finish (urb : ℕ)
  | reset
  | unbind
  | hub

/-! ### Open and release -/

/-- `kref_put(&dev->kref, skel_delete)` -/
def Skel.kref_put (s : Skel) : Skel :=
  { s with kref := s.kref - 1, deleted := if s.kref = 1 then s.deleted + 1 else s.deleted }

/-- `skel_open`, with `minor_rwsem` taken around it. -/
def skel_open (s : Skel) : OpenPc → Act → Option (Skel × Pc)
  | .find, .step =>
    if s.intfdata then some (s, .opening .autopm)
    else some ({ s with openers := s.openers - 1 }, .closed)
  -- the minor's interface is no longer the driver's
  | .find, .fault _ => some ({ s with openers := s.openers - 1 }, .closed)
  | .autopm, .step => some ({ s with pm_usage := s.pm_usage + 1 }, .opening .get)
  | .autopm, .fault _ => some ({ s with openers := s.openers - 1 }, .closed)
  | .get, .step => some ({ s with kref := s.kref + 1, openers := s.openers - 1 }, .idle)
  | _, _ => none

def skel_release (s : Skel) : ReleasePc → Act → Option (Skel × Pc)
  | .lock, .step =>
    if s.io_mutex then none else some ({ s with io_mutex := true }, .releasing .held)
  | .held, .step =>
    some (if s.interface then { s with pm_usage := s.pm_usage - 1 } else s, .releasing .unlock)
  | .unlock, .step => some ({ s with io_mutex := false }, .releasing .put)
  | .put, .step => some (s.kref_put, .closed)
  | _, _ => none

/-- `skel_flush`, with the two waits of `skel_draw_down`. -/
def skel_flush (s : Skel) (last : Bool) : FlushPc → Act → Option (Skel × Pc)
  | .lock, .step =>
    if s.io_mutex then none else some ({ s with io_mutex := true }, .flushing last .drawAnchor)
  | .drawAnchor, .step => if s.submitted = [] then some (s, .flushing last .drawRead) else none
  | .drawRead, .step => if s.reading = none then some (s, .flushing last .errors) else none
  | .errors, .step =>
    some ({ s with errors := 0 },
      .flushing last (.unlock
        (if s.errors = 0 then 0 else if s.errors = -EPIPE then -EPIPE else - EIO)))
  | .unlock _, .step =>
    some ({ s with io_mutex := false }, if last then .releasing .lock else .idle)
  | _, _ => none

/-! ### Reads -/

/-- The value that reports an error: `-EPIPE` preserves notifications about a reset. -/
def reported (rv : ℤ) : ℤ := if rv = -EPIPE then rv else - EIO

/-- `skel_do_read_io` has returned `rv`: a read that has its reply already ignores it. -/
def ReadPc.afterIo (rv : ℤ) : Option Reply → ReadPc
  | none => if rv < 0 then .exit ⟨rv, []⟩ else .retry
  | some r => .exit r

def skel_do_read_io (s : Skel) : ReadPc → Act → Option (Skel × ReadPc)
  | .prepare count r, .step => some ({ s with ongoing_read := true }, .begun count r)
  | .begun count r, .step =>
    if s.enabled ∧ s.reading = none then
      some ({ s with
        bulk_in_filled := 0, bulk_in_copied := 0
        reading := some (min s.bulk_in_size count) }, .afterIo 0 r)
    else none
  | .begun _ r, .fault e =>
    if e = 0 then none
    else some ({ s with bulk_in_filled := 0, bulk_in_copied := 0 }, .failed (-e) r)
  | .failed rv r, .step =>
    some ({ s with ongoing_read := false }, .afterIo (if rv = -ENOMEM then rv else - EIO) r)
  | _, _ => none

/-- `dev->bulk_in_filled - dev->bulk_in_copied` -/
def Skel.available (s : Skel) : ℕ := toSizeT ((s.bulk_in_filled : ℤ) - s.bulk_in_copied)

/-- The `chunk` bytes at `dev->bulk_in_buffer + dev->bulk_in_copied`. -/
def Skel.chunk (s : Skel) (chunk : ℕ) : List UInt8 :=
  (s.bulk_in_buffer.drop s.bulk_in_copied).take chunk

/-- `skel_read` hands `min(available, count)` bytes to `copy_to_user`, which moves them (`ok`) or
faults, and goes on to read ahead if the caller asked for more. -/
def skel_read_copy (s : Skel) (c : ReadCall) (ok : Bool) : Skel × ReadPc :=
  let available := s.available
  let chunk := min available c.count
  -- `rv` is an `int`; a chunk is at most `wMaxPacketSize` bytes
  let r : Reply := if ok then ⟨chunk, s.chunk chunk⟩ else ⟨-EFAULT, []⟩
  ({ s with
      bulk_in_copied := s.bulk_in_copied + chunk
      handed := s.handed ++ [(ok, s.chunk chunk)] },
    if available < c.count then .prepare (c.count - chunk) (some r) else .exit r)

/-- `skel_read` with `io_mutex` held, up to the label `exit`. -/
def skel_read_locked (s : Skel) (c : ReadCall) : ReadPc → Act → Option (Skel × ReadPc)
  | .held, .step => some (s, if s.interface then .retry else .exit ⟨-ENODEV, []⟩)
  | .retry, .step =>
    some (s, if s.ongoing_read then (if c.nonblock then .exit ⟨-EAGAIN, []⟩ else .wait)
      else .check)
  | .wait, .step => if s.ongoing_read then none else some (s, .check)
  | .wait, .signal => some (s, .exit ⟨-ERESTARTSYS, []⟩)
  -- both without `err_lock`: a callback or a write can come between them
  | .check, .step => some (s, if s.errors < 0 then .clear s.errors else .data)
  | .clear rv, .step =>
    some ({ s with errors := 0 }, .exit ⟨reported rv, []⟩)
  | .data, .step =>
    some (if s.bulk_in_filled = 0 ∨ s.available = 0 then (s, .prepare c.count none)
      else skel_read_copy s c true)
  | .data, .fault _ =>
    if s.bulk_in_filled = 0 ∨ s.available = 0 then none else some (skel_read_copy s c false)
  | pc, a => skel_do_read_io s pc a

def skel_read (s : Skel) (c : ReadCall) : ReadPc → Act → Option (Skel × Pc)
  | .lock, .step =>
    if s.io_mutex then none else some ({ s with io_mutex := true }, .reading c .held)
  | .lock, .signal => some (s, .readRet c ⟨-EINTR, []⟩)
  | .exit r, .step => some ({ s with io_mutex := false }, .readRet c r)
  | pc, a => (skel_read_locked s c pc a).map (Prod.map id (Pc.reading c))

/-! ### Writes -/

/-- `usb_free_urb(urb)`: drop one reference. -/
def Skel.usb_free_urb (s : Skel) (urb : ℕ) : Skel :=
  { s with refs := Function.update s.refs urb (s.refs urb - 1) }

/-- `usb_unanchor_urb(urb)`: the anchor's reference is dropped, if the urb is anchored. -/
def Skel.usb_unanchor_urb (s : Skel) (urb : ℕ) : Skel :=
  { s with
    submitted := s.submitted.erase urb
    refs := if urb ∈ s.submitted then Function.update s.refs urb (s.refs urb - 1) else s.refs }

/-- `usb_free_coherent` on the buffer of `urb`; a null `buf` is ignored. -/
def Skel.usb_free_coherent (s : Skel) (urb : ℕ) (buf : Bool) : Skel :=
  { s with buf := if buf then Function.update s.buf urb none else s.buf }

/-- `skel_write` up to `mutex_lock`: the permit, the errors, the urb and its buffer. -/
def skel_write_prepare (s : Skel) (c : WriteCall) : WritePc → Act → Option (Skel × Pc)
  | .down, .step =>
    if s.limit_sem = 0 then (if c.nonblock then some (s, .writeRet c (-EAGAIN)) else none)
    else some ({ s with limit_sem := s.limit_sem - 1 }, .writing c .errors)
  | .down, .signal => if c.nonblock then none else some (s, .writeRet c (-ERESTARTSYS))
  | .errors, .step =>
    if s.errors < 0 then
      some ({ s with errors := 0 }, .writing c (.error none false (reported s.errors)))
    else some (s, .writing c .alloc)
  | .alloc, .step =>
    some ({ s with refs := Function.update s.refs s.fresh 1, fresh := s.fresh + 1 },
      .writing c (.buffer s.fresh))
  | .alloc, .fault _ => some (s, .writing c (.error none false (-ENOMEM)))
  | .buffer urb, .step =>
    some ({ s with buf := Function.update s.buf urb (some []) }, .writing c (.copy urb))
  | .buffer urb, .fault _ => some (s, .writing c (.error (some urb) false (-ENOMEM)))
  | .copy urb, .step =>
    some ({ s with buf := Function.update s.buf urb (some c.payload) }, .writing c (.lock urb))
  | .copy urb, .fault _ => some (s, .writing c (.error (some urb) true (-EFAULT)))
  | _, _ => none

/-- `skel_write` from `mutex_lock` on: the submission, and what follows a refusal. -/
def skel_write_submit (s : Skel) (c : WriteCall) : WritePc → Act → Option (Skel × Pc)
  | .lock urb, .step =>
    if s.io_mutex then none else some ({ s with io_mutex := true }, .writing c (.held urb))
  | .held urb, .step =>
    if s.interface then
      some ({ s with
        submitted := s.submitted ++ [urb]
        refs := Function.update s.refs urb (s.refs urb + 1) }, .writing c (.submit urb))
    else some ({ s with io_mutex := false }, .writing c (.error (some urb) true (-ENODEV)))
  | .submit urb, .step =>
    if s.enabled then
      some ({ s with
        queue := s.queue ++ [urb]
        refs := Function.update s.refs urb (s.refs urb + 1)
        sent := s.sent ++ [(s.buf urb).getD []] }, .writing c (.unlock urb 0))
    else none
  | .submit urb, .fault e => if e = 0 then none else some (s, .writing c (.unlock urb (-e)))
  | .unlock urb retval, .step =>
    some ({ s with io_mutex := false },
      .writing c (if retval = 0 then .free urb else .report urb retval))
  | .report urb retval, .step => some (s, .writing c (.unanchor urb retval))
  | .free urb, .step =>
    some ({ s with written := s.written ++ [c.payload] }.usb_free_urb urb,
      .writeRet c c.writesize)
  | .unanchor urb retval, .step =>
    some (s.usb_unanchor_urb urb, .writing c (.error (some urb) true retval))
  | .error none _ retval, .step => some (s, .writing c (.up retval))
  | .error (some urb) buf retval, .step =>
    some ((s.usb_free_coherent urb buf).usb_free_urb urb, .writing c (.up retval))
  | .up retval, .step => some ({ s with limit_sem := s.limit_sem + 1 }, .writeRet c retval)
  | _, _ => none

def skel_write (s : Skel) (c : WriteCall) : WritePc → Act → Option (Skel × Pc)
  | .down, a => skel_write_prepare s c .down a
  | .errors, a => skel_write_prepare s c .errors a
  | .alloc, a => skel_write_prepare s c .alloc a
  | .buffer urb, a => skel_write_prepare s c (.buffer urb) a
  | .copy urb, a => skel_write_prepare s c (.copy urb) a
  | pc, a => skel_write_submit s c pc a

/-! ### The processes -/

/-- `usb_open`, up to the call of `skel_open`: nobody is deregistering the minor. -/
def usb_open (s : Skel) : Skel × Pc :=
  if s.minor then ({ s with openers := s.openers + 1 }, .opening .find) else (s, .closed)

/-- The next step of a process. -/
def Pc.act (s : Skel) : Pc → Act → Option (Skel × Pc)
  | .closed, .open => some (usb_open s)
  | .opening pc, a => skel_open s pc a
  | .idle, .read c => some (s, if c.count = 0 then .readRet c ⟨0, []⟩ else .reading c .lock)
  | .idle, .write c =>
    some (s, if c.data.length = 0 then .writeRet c 0 else .writing c .down)
  | .idle, .flush => some (s, .flushing false .lock)
  | .idle, .close => some (s, .flushing true .lock)
  | .reading c pc, a => skel_read s c pc a
  | .readRet _ _, .step => some (s, .idle)
  | .writing c pc, a => skel_write s c pc a
  | .writeRet _ _, .step => some (s, .idle)
  | .flushing last pc, a => skel_flush s last pc a
  | .releasing pc, a => skel_release s pc a
  | _, _ => none

/-! ### The completions -/

/-- `dev->errors = rv` -/
def Skel.post (s : Skel) (rv : ℤ) : Skel :=
  { s with errors := rv, posted := s.posted ++ [rv] }

/-- `skel_read_bulk_callback`: the urb was filled with at most the bytes it asked for. -/
def skel_read_bulk_callback (s : Skel) (st : ℕ) (data : List UInt8) : Option Skel :=
  match s.reading with
  | none => none
  | some n =>
    if n < data.length then none
    else
      let s := { s with
        bulk_in_buffer := data ++ s.bulk_in_buffer.drop data.length
        reading := none
        ongoing_read := false }
      some (if st = 0 then
          { s with bulk_in_filled := data.length, arrived := s.arrived ++ data }
        else s.post (-st))

/-- The core unanchors a write urb and calls `skel_write_bulk_callback`, up to the end of the
section of `err_lock`. -/
def giveback (s : Skel) (urb st : ℕ) : Option Skel :=
  if urb ∈ s.queue then
    let s := { s with queue := s.queue.erase urb, giving := s.giving ++ [urb] }.usb_unanchor_urb urb
    some (if st = 0 then s else s.post (-st))
  else none

/-- The rest of `skel_write_bulk_callback`, and the core drops its reference. -/
def finish (s : Skel) (urb : ℕ) : Option Skel :=
  if urb ∈ s.giving then
    some ({ s with
      giving := s.giving.erase urb
      limit_sem := s.limit_sem + 1 }.usb_free_coherent urb true |>.usb_free_urb urb)
  else none

/-! ### The core -/

/-- The next step of the core: a reset (`skel_pre_reset`, `skel_post_reset`) or the end of the
device (`skel_disconnect`). -/
def Hub.step (s : Skel) : Option Skel :=
  match s.hub with
  | .bound => none
  | .preReset => if s.io_mutex then none else some { s with io_mutex := true, hub := .drawAnchor }
  | .drawAnchor => if s.submitted = [] then some { s with hub := .drawRead } else none
  | .drawRead => if s.reading = none then some { s with hub := .reset } else none
  | .reset =>
    some { s.post (-EPIPE) with io_mutex := false, hub := .bound }
  | .disconnect => some { s with intfdata := false, hub := .deregister }
  | .deregister => if s.openers = 0 then some { s with minor := false, hub := .lock } else none
  | .lock => if s.io_mutex then none else some { s with io_mutex := true, hub := .clear }
  | .clear => some { s with interface := false, hub := .unlock }
  | .unlock => some { s with io_mutex := false, hub := .kill }
  | .kill => if s.submitted = [] then some { s with hub := .put } else none
  | .put => some { s.kref_put with hub := .gone }
  | .gone => none

/-- Before `skel_disconnect`, the core has all urbs of the interface given back, and disables its
endpoints. -/
def Env.act (s : Skel) : Env → Option Skel
  | .skel_read_bulk_callback st data => UsbSkel.skel_read_bulk_callback s st data
  | .giveback urb st => UsbSkel.giveback s urb st
  | .finish urb => UsbSkel.finish s urb
  | .reset => if s.hub = .bound then some { s with hub := .preReset } else none
  | .unbind =>
    if s.hub = .bound ∧ s.reading = none ∧ s.queue = [] ∧ s.giving = [] then
      some { s with enabled := false, hub := .disconnect }
    else none
  | .hub => Hub.step s

/-- The driver, its processes and the USB core. -/
def driver : Parties Skel Pc Act Env where
  act s pc a := pc.act s a
  env := Env.act

/-- The device after a successful `skel_probe`, with a buffer of `buffer_size` bytes. -/
def Skel.probed (bulk_in_buffer : List UInt8) : Skel where
  interface := true
  limit_sem := WRITES_IN_FLIGHT
  submitted := []
  bulk_in_buffer := bulk_in_buffer
  bulk_in_size := bulk_in_buffer.length
  bulk_in_filled := 0
  bulk_in_copied := 0
  errors := 0
  ongoing_read := false
  kref := 1
  io_mutex := false
  deleted := 0
  reading := none
  queue := []
  giving := []
  refs _ := 0
  buf _ := none
  fresh := 0
  enabled := true
  minor := true
  intfdata := true
  openers := 0
  pm_usage := 0
  hub := .bound
  arrived := []
  handed := []
  sent := []
  written := []
  posted := []

/-- The start: nobody has the device open. -/
def start (ι : Type) (bulk_in_buffer : List UInt8) : Parties.State Skel Pc ι :=
  ⟨Skel.probed bulk_in_buffer, fun _ => .closed⟩

end QuickDevSkeleton.UsbSkel
