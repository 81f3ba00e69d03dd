import EmulatorHost.Proofs.Page.Operation
import EmulatorHost.Proofs.Scheduler.Effect
import EmulatorHost.Proofs.Scheduler.Refresh

/-!
# The mirror of a page's core

The host never sees the memory of a core on a page, but a mirror of the window that holds the picture,
copied anew for every refresh over what the mirror held before.

* **`PageCore.mirrored_eq`**: the mirror holds the window, as far as the memory goes, and nothing else.
* **`PageCore.shot_eq`**: through the mirror a refresh takes the same picture as from the memory itself.
* **`Page.refresh_eq_direct`**: whatever a page has done before, a refresh shows the picture in the memory,
  or reports a fault and leaves the last picture alone where there is none.
-/

namespace EmulatorHost

variable {σ : Type}

/-! ## The mirror -/

namespace PageCore

/-- Bytes of the window of a page's core. -/
def windowSize : Nat := 256 * 240 * 3

theorem copySlice_eq_extract {memory buffer : ByteArray} {start stop : Nat} (inside : stop ≤ memory.size)
    (size : buffer.size = stop - start) (order : start ≤ stop) :
    memory.copySlice start buffer 0 (stop - start) = memory.extract start stop := by
  have rest : 0 + min (stop - start) (memory.data.size - start) = buffer.data.size := by
    have memorySize : memory.data.size = memory.size := rfl
    have bufferSize : buffer.data.size = buffer.size := rfl
    omega
  rw [ByteArray.copySlice_eq_append, rest, Nat.add_sub_cancel' order]
  refine ByteArray.ext ?_
  simp

/-- **The mirror holds the window**, as far as the memory goes, whatever it held before. -/
theorem mirrored_eq (pointer : Nat) {memory : ByteArray} (mirror : ByteArray)
    (inside : memory.size < FrameBuffer.addressSpace) :
    mirrored pointer memory mirror =
      memory.extract (min pointer memory.size) (min (pointer + windowSize) memory.size) := by
  have window : window pointer memory.size =
      (min pointer memory.size, min (pointer + windowSize) memory.size) := by
    refine congrArg (Prod.mk _) ?_
    change min (min (pointer + windowSize) (FrameBuffer.addressSpace - 1)) memory.size = _
    omega
  rw [mirrored, window]
  exact copySlice_eq_extract (Nat.min_le_right _ _) (FrameBuffer.size_resized _ _ _) (by omega)

/-- **Through the mirror the picture is the one in the memory**, and where that does not hold the window the
mirror is too short. -/
theorem picture?_mirrored (pointer : Nat) {memory : ByteArray} (mirror : ByteArray)
    (inside : memory.size < FrameBuffer.addressSpace) :
    (FrameBuffer.standard 0).picture? (mirrored pointer memory mirror) =
      if pointer + windowSize ≤ memory.size then .ok ((FrameBuffer.standard pointer).picture memory)
      else .error (.outOfBounds 0 windowSize (memory.size - min pointer memory.size)) := by
  have size : (mirrored pointer memory mirror).size =
      min (pointer + windowSize) memory.size - min pointer memory.size := by
    rw [mirrored_eq pointer mirror inside, ByteArray.size_extract]
    omega
  have fits : (FrameBuffer.standard 0).Fits (mirrored pointer memory mirror).size ↔
      pointer + windowSize ≤ memory.size := by
    have whole : (FrameBuffer.standard 0).base + (FrameBuffer.standard 0).sourceSize = windowSize := rfl
    have positive : 0 < windowSize := by decide
    rw [FrameBuffer.fits_iff (by omega), whole, size]
    omega
  unfold FrameBuffer.picture?
  split_ifs with h h' h'
  · have window : mirrored pointer memory mirror = memory.extract pointer (pointer + windowSize) := by
      rw [mirrored_eq pointer mirror inside, Nat.min_eq_left h', Nat.min_eq_left (by omega)]
    rw [window]
    exact congrArg _ (@FrameBuffer.picture_window (.standard pointer) memory (Nat.le_refl 3) h')
  · exact absurd (fits.mp h) h'
  · exact absurd (fits.mpr h') h
  · have short : (mirrored pointer memory mirror).size = memory.size - min pointer memory.size := by
      rw [size]
      omega
    rw [short]
    rfl

theorem toDisplay_standard (pointer : Nat) {memory : ByteArray}
    (inside : memory.size < FrameBuffer.addressSpace) :
    (FrameBuffer.standard pointer).toDisplay memory =
      if pointer + windowSize ≤ memory.size then .ok (.whole ((FrameBuffer.standard pointer).picture memory))
      else .error (.outOfBounds pointer ((FrameBuffer.standard pointer).stop?.getD
        (FrameBuffer.addressSpace - 1)) memory.size) := by
  have fits : (FrameBuffer.standard pointer).Fits memory.size ↔ pointer + windowSize ≤ memory.size :=
    FrameBuffer.fits_iff inside
  rw [FrameBuffer.toDisplay_eq (Nat.le_refl 3), FrameBuffer.picture?]
  split_ifs with h h' h'
  · rfl
  · exact absurd (fits.mp h) h'
  · exact absurd (fits.mpr h') h
  · rfl

variable (c : PageCore σ)

theorem memory_toCore {w v : σ} {memory : ByteArray} (h : c.memory w = .ok memory v) :
    c.toCore.memory.answer w = .ok (mirrored c.pointer memory (c.mirror v)) := by
  change (c.memory >>= _ : Act σ ByteArray).answer w = _
  rw [Act.answer, Act.bind_apply, h]
  rfl

/-- **What a refresh of a page takes of the memory.** -/
theorem shot_eq {r : Rig σ} {memory : ByteArray} {v : σ} (base : r.machine.session.base = 0)
    (exposed : c.memory r.machine.world = .ok memory v) (inside : memory.size < FrameBuffer.addressSpace) :
    r.shot c.toCore =
      if c.pointer + windowSize ≤ memory.size then .ok ((FrameBuffer.standard c.pointer).picture memory)
      else .error (.failure ⟨[(FrameBufferError.outOfBounds 0 windowSize
        (memory.size - min c.pointer memory.size)).message]⟩) := by
  have window : r.machine.session.frameBuffer = .standard 0 := congrArg FrameBuffer.standard base
  rw [Rig.shot_of_ok (c.memory_toCore exposed), window, picture?_mirrored c.pointer _ inside]
  split_ifs <;> rfl

end PageCore

/-! ## Refreshes of a page -/

namespace Page

theorem refresh_apply {core : Core σ} {p : Page σ} {report : RefreshReport} {r : Rig σ}
    (h : Scheduler.refresh core renderer p.rig = .ok report r) :
    refresh core p = .ok report.painted ((p.withRig r).dealAll (PageOp.told "present" report.fault)) := by
  rw [refresh, Act.bind_apply, onRig_apply, h]
  rcases report with ⟨_, _ | _⟩ <;> rfl

theorem dealAll_frame (p : Page σ) (ds : List Dealing) : (p.dealAll ds).frame = p.frame := by
  rw [frame, dealAll_rig, frame]

/-- **A refresh shows the picture in the memory.** Whatever the page has done before, and however its
memory has changed, a refresh paints exactly if the window lies inside the memory, and then shows what a
direct conversion of the memory gives; otherwise it reports a fault and leaves a picture shown before alone. -/
theorem refresh_eq_direct (c : PageCore σ) (clock : Clock σ) {text : Option String} {w : σ} {start : Page σ}
    (created : create c.toCore text w = .ok start) (ops : List PageOp) {memory : ByteArray} {v : σ}
    (running : (start.run c.toCore clock ops).rig.machine.session.isRunning = true)
    (awake : (start.run c.toCore clock ops).rig.scheduler.stopped = false)
    (exposed : c.memory (start.run c.toCore clock ops).rig.machine.world = .ok memory v)
    (small : memory.size < UInt32.size) :
    let p := start.run c.toCore clock ops
    let q := (refresh c.toCore).after p
    let direct := (FrameBuffer.standard c.pointer).toDisplay memory
    let short := FrameBufferError.outOfBounds 0 (256 * 240 * 3) (memory.size - min c.pointer memory.size)
    (c.pointer + 256 * 240 * 3 ≤ memory.size ∧ direct = .ok (.whole q.frame) ∧
        (refresh c.toCore).answer p = .ok true) ∨
      (memory.size < c.pointer + 256 * 240 * 3 ∧ (∃ e, direct = .error e) ∧
        (refresh c.toCore).answer p = .ok false ∧
        q.notices = (p.notices.fault ("present fault: " ++ short.message)).2 ∧
        q.rig.scheduler.faults = p.rig.scheduler.faults + 1 ∧ (p.frame.size ≠ 0 → q.frame = p.frame)) := by
  intro p q direct short
  have inside : memory.size < FrameBuffer.addressSpace := Nat.lt_trans small (by decide)
  have base : p.rig.machine.session.base = 0 := by
    refine run_induction (P := fun r => r.machine.session.base = 0) (fun op r h => ?_) ops ?_
    · rw [(op.performs c.toCore r).base, h]
    · obtain ⟨config, cadence, rfl⟩ := create_eq_ok created
      rw [configured_session]
      rfl
  have framed : p.rig.Framed := by
    refine run_induction (P := Rig.Framed) (fun op r h => op.framed c.toCore h) ops ?_
    obtain ⟨config, cadence, rfl⟩ := create_eq_ok created
    rw [configured_rig]
    exact .inl rfl
  have refreshed := Scheduler.refresh_eq c.toCore renderer awake running
  rw [c.shot_eq base exposed inside] at refreshed
  have shown := PageCore.toDisplay_standard c.pointer inside
  by_cases fits : c.pointer + PageCore.windowSize ≤ memory.size
  · rw [if_pos fits] at refreshed shown
    refine .inl ⟨fits, ?_, Act.answer_of_ok (refresh_apply refreshed)⟩
    have frame : q.frame = (FrameBuffer.standard c.pointer).picture memory := by
      change ((refresh c.toCore).after p).frame = _
      rw [Act.after_of_ok (refresh_apply refreshed), dealAll_frame]
      rfl
    rw [frame]
    exact shown
  · rw [if_neg fits] at refreshed shown
    have after : q = _ := Act.after_of_ok (refresh_apply refreshed)
    refine .inr ⟨Nat.lt_of_not_le fits, ⟨_, shown⟩, Act.answer_of_ok (refresh_apply refreshed), ?_, ?_, ?_⟩
    · rw [after]
      rfl
    · rw [after]
      rfl
    · intro some
      have size : p.rig.scheduler.display.size = p.rig.machine.session.frameBuffer.displaySize :=
        framed.resolve_left some
      rw [after, dealAll_frame]
      exact FrameBuffer.resized_of_size size 255

/-- A core on a page that does nothing, in a world that is its memory. -/
def stillCore (pointer : Nat) : PageCore ByteArray where
  reset := return
  load _ := return true
  stepLine := return .ok ()
  updateKey _ := return
  memory := get
  pointer := pointer
  millis := return 0
  mirror _ := .empty
  setMirror _ memory := memory

/-- A page with the still core, after an image was loaded. -/
def loadedStill (pointer : Nat) (memory : ByteArray) : Page ByteArray :=
  (configured (stillCore pointer).toCore .standard (.forUnit .scanline) memory).run (stillCore pointer).toCore
    (stillCore pointer).clock [.loadRom .empty]

theorem refresh_eq_direct_still :
    let ample := FrameBuffer.filled 200000 7
    (refresh (stillCore 3).toCore).answer (loadedStill 3 ample) = .ok true ∧
      (FrameBuffer.standard 3).toDisplay ample =
        .ok (.whole ((refresh (stillCore 3).toCore).after (loadedStill 3 ample)).frame) ∧
      (refresh (stillCore 3).toCore).answer (loadedStill 3 .empty) = .ok false := by
  intro ample
  have size : ample.size = 200000 := Array.size_replicate
  have small : ample.size < UInt32.size := by
    rw [size]
    decide
  have opened (memory : ByteArray) : create (stillCore 3).toCore none memory =
      .ok (configured (stillCore 3).toCore .standard (.forUnit .scanline) memory) := rfl
  have exposed (memory : ByteArray) :
      (stillCore 3).memory (loadedStill 3 memory).rig.machine.world = .ok memory memory := rfl
  have ofAmple := refresh_eq_direct (stillCore 3) (stillCore 3).clock (opened ample) [.loadRom .empty]
    rfl rfl (exposed ample) small
  have ofEmpty := refresh_eq_direct (stillCore 3) (stillCore 3).clock (opened .empty) [.loadRom .empty]
    rfl rfl (exposed .empty) (by decide)
  rcases ofAmple with ⟨_, shown, painted⟩ | ⟨short, _⟩
  · rcases ofEmpty with ⟨fits, _⟩ | ⟨_, _, refused, _⟩
    · exact absurd fits (by decide)
    · exact ⟨painted, shown, refused⟩
  · rw [size] at short
    exact absurd short (by decide)

end Page

end EmulatorHost
