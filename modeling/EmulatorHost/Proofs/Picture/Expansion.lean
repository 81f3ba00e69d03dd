import EmulatorHost.Picture.FrameBuffer
import Mathlib.Tactic.SplitIfs

/-!
# What an expanded picture shows

* `FrameBuffer.picture`: the picture in a memory, said byte by byte.
* `FrameBuffer.picture?`: the picture, if the window lies inside the memory;
  **`FrameBuffer.writeDisplay_eq`**: a window is expanded into exactly this, whatever the buffer held before.
* **`FrameBuffer.picture_window`**: it is also the picture in a copy of the window.
-/

namespace EmulatorHost.FrameBuffer

/-! ## Bytes of buffers -/

section Buffers

variable {a b : ByteArray}

@[simp] theorem size_set! (b : ByteArray) (i : Nat) (x : UInt8) : (b.set! i x).size = b.size :=
  Array.size_setIfInBounds ..

theorem get!_set! {i : Nat} (h : i < b.size) (x : UInt8) (j : Nat) :
    (b.set! i x).get! j = if i = j then x else b.get! j := by
  change (b.data.setIfInBounds i x)[j]! = if i = j then x else b.data[j]!
  have h : i < b.data.size := h
  grind

theorem get!_extract {start stop j : Nat} (h : start + j < stop) (fits : stop ≤ b.size) :
    (b.extract start stop).get! j = b.get! (start + j) := by
  change (b.extract start stop).data[j]! = b.data[start + j]!
  have fits : stop ≤ b.data.size := fits
  rw [ByteArray.data_extract]
  grind

theorem ext_get! (size : a.size = b.size) (h : ∀ j < a.size, a.get! j = b.get! j) : a = b := by
  refine ByteArray.ext (Array.ext size fun j ha hb => ?_)
  have same : a.data[j]! = b.data[j]! := h j ha
  rwa [getElem!_pos a.data j ha, getElem!_pos b.data j hb] at same

theorem size_filled (n : Nat) (fill : UInt8) : (filled n fill).size = n := Array.size_replicate

@[simp] theorem size_resized (b : ByteArray) (n : Nat) (fill : UInt8) : (resized b n fill).size = n := by
  unfold resized
  split
  · next less =>
    rw [ByteArray.size_extract]
    omega
  · next more =>
    rw [ByteArray.size_append, size_filled]
    omega

theorem resized_of_size {n : Nat} (h : b.size = n) (fill : UInt8) : resized b n fill = b := by
  subst h
  rw [resized, if_pos (Nat.le_refl _), ByteArray.extract_zero_size]

end Buffers

/-! ## Pictures -/

variable {fb : FrameBuffer} {memory out : ByteArray}

/-- A byte of the expanded picture: a pixel takes its first three bytes from the window, and is opaque. -/
def pictureByte (fb : FrameBuffer) (memory : ByteArray) (j : Nat) : UInt8 :=
  if j % 4 = 3 then 255 else memory.get! (fb.base + j / 4 * fb.channels + j % 4)

/-- The expanded picture. -/
def picture (fb : FrameBuffer) (memory : ByteArray) : ByteArray :=
  ⟨.ofFn fun j : Fin fb.displaySize => fb.pictureByte memory j⟩

@[simp] theorem size_picture (fb : FrameBuffer) (memory : ByteArray) :
    (fb.picture memory).size = fb.displaySize := Array.size_ofFn

theorem get!_picture {j : Nat} (h : j < fb.displaySize) :
    (fb.picture memory).get! j = fb.pictureByte memory j := by
  change (Array.ofFn fun j : Fin fb.displaySize => fb.pictureByte memory j)[j]! = _
  rw [getElem!_pos _ j (by simpa using h), Array.getElem_ofFn]

/-- A buffer with one more pixel. -/
def drawn (fb : FrameBuffer) (memory : ByteArray) (i : Nat) (out : ByteArray) : ByteArray :=
  let a := fb.base + i * fb.channels
  (((out.set! (i * 4) (memory.get! a)).set! (i * 4 + 1) (memory.get! (a + 1))).set! (i * 4 + 2)
    (memory.get! (a + 2))).set! (i * 4 + 3) 255

@[simp] theorem size_drawn (fb : FrameBuffer) (memory : ByteArray) (i : Nat) (out : ByteArray) :
    (fb.drawn memory i out).size = out.size := by
  simp [drawn]

theorem get!_drawn {i : Nat} (room : i * 4 + 4 ≤ out.size) (j : Nat) :
    (fb.drawn memory i out).get! j =
      if i * 4 ≤ j ∧ j < i * 4 + 4 then fb.pictureByte memory j else out.get! j := by
  unfold drawn
  rw [get!_set! (by simp only [size_set!]; omega), get!_set! (by simp only [size_set!]; omega),
    get!_set! (by simp only [size_set!]; omega), get!_set! (by omega)]
  by_cases inside : i * 4 ≤ j ∧ j < i * 4 + 4
  · rw [if_pos inside, pictureByte, show j / 4 = i by omega]
    obtain h | h | h | h : j = i * 4 ∨ j = i * 4 + 1 ∨ j = i * 4 + 2 ∨ j = i * 4 + 3 := by omega
    all_goals subst h; simp
  · rw [if_neg inside, if_neg (by omega), if_neg (by omega), if_neg (by omega), if_neg (by omega)]

theorem expand_whole (memory : ByteArray) (colours : 3 ≤ fb.channels) (n i : Nat) (out : ByteArray)
    (inside : i + n ≤ fb.width * fb.height) (room : out.size = fb.displaySize) :
    ∃ done, fb.expand memory i n out = .whole done ∧ done.size = fb.displaySize ∧
      ∀ j, done.get! j = if i * 4 ≤ j ∧ j < (i + n) * 4 then fb.pictureByte memory j else out.get! j := by
  induction n generalizing i out with
  | zero => exact ⟨out, rfl, room, fun j => (if_neg (by omega)).symm⟩
  | succ n ih =>
    have pixel : i * fb.channels + 2 < fb.sourceSize := by
      have upTo : (i + 1) * fb.channels ≤ fb.sourceSize := Nat.mul_le_mul_right _ (by omega)
      rw [Nat.succ_mul] at upTo
      omega
    have bytes : i * 4 + 4 ≤ out.size := by
      rw [room, displaySize]
      omega
    obtain ⟨done, whole, size, shown⟩ :=
      ih (i + 1) (fb.drawn memory i out) (by omega) (by rwa [size_drawn])
    refine ⟨done, ?_, size, fun j => ?_⟩
    · rw [expand, if_pos pixel]
      exact whole
    · rw [shown j, get!_drawn bytes j]
      split_ifs
      all_goals first | rfl | omega

theorem writeDisplay_of_fits (colours : 3 ≤ fb.channels) (room : out.size = fb.displaySize)
    (fits : fb.Fits memory.size) : fb.writeDisplay memory out = .ok (.whole (fb.picture memory)) := by
  obtain ⟨done, whole, size, shown⟩ :=
    expand_whole memory colours (fb.width * fb.height) 0 out (by omega) room
  have same : done = fb.picture memory := by
    refine ext_get! (size.trans (size_picture fb memory).symm) fun j h => ?_
    have h : j < fb.displaySize := size ▸ h
    rw [shown j, get!_picture h, if_pos]
    rw [displaySize] at h
    omega
  rw [writeDisplay, if_neg (not_not_intro room), if_pos fits, whole, same]

/-- The picture in a memory, if the window lies inside it. -/
def picture? (fb : FrameBuffer) (memory : ByteArray) : Except FrameBufferError ByteArray :=
  if fb.Fits memory.size then .ok (fb.picture memory)
  else .error (.outOfBounds fb.base (fb.stop?.getD (addressSpace - 1)) memory.size)

/-- **A window is expanded into the picture**, whatever the buffer held before, if it lies inside the memory. -/
theorem writeDisplay_eq (colours : 3 ≤ fb.channels) (room : out.size = fb.displaySize) :
    fb.writeDisplay memory out = (fb.picture? memory).map .whole := by
  by_cases fits : fb.Fits memory.size
  · rw [writeDisplay_of_fits colours room fits, picture?, if_pos fits]
    rfl
  · rw [writeDisplay, if_neg (not_not_intro room), if_neg fits, picture?, if_neg fits]
    rfl

theorem toDisplay_eq (colours : 3 ≤ fb.channels) : fb.toDisplay memory = (fb.picture? memory).map .whole :=
  writeDisplay_eq colours (size_filled _ 255)

theorem size_of_picture? {picture : ByteArray} (h : fb.picture? memory = .ok picture) :
    picture.size = fb.displaySize := by
  unfold picture? at h
  split_ifs at h
  rw [← Except.ok.inj h]
  exact size_picture fb memory

theorem fits_iff_stop {size : Nat} : fb.Fits size ↔
    fb.base + fb.sourceSize < addressSpace ∧ fb.base + fb.sourceSize ≤ size := by
  unfold Fits stop?
  constructor
  · rintro ⟨stop, h, le⟩
    split_ifs at h with small
    cases h
    exact ⟨small, le⟩
  · rintro ⟨small, le⟩
    exact ⟨_, if_pos small, le⟩

theorem Fits.inside {size : Nat} (fits : fb.Fits size) : fb.base + fb.sourceSize ≤ size :=
  (fits_iff_stop.mp fits).2

theorem fits_iff {size : Nat} (inside : size < addressSpace) :
    fb.Fits size ↔ fb.base + fb.sourceSize ≤ size :=
  fits_iff_stop.trans (and_iff_right_of_imp fun le => Nat.lt_of_le_of_lt le inside)

/-- **A copy of the window shows the same picture**, from its start on. -/
theorem picture_window (colours : 3 ≤ fb.channels) (inside : fb.base + fb.sourceSize ≤ memory.size) :
    { fb with base := 0 }.picture (memory.extract fb.base (fb.base + fb.sourceSize)) =
      fb.picture memory := by
  refine ext_get! (by simp [displaySize]) fun j h => ?_
  rw [size_picture] at h
  have inPicture : j < fb.displaySize := h
  rw [get!_picture h, get!_picture inPicture, pictureByte, pictureByte]
  dsimp only
  split_ifs with opaqueByte
  · rfl
  · have inWindow : j / 4 * fb.channels + j % 4 < fb.sourceSize := by
      have pixel : j / 4 + 1 ≤ fb.width * fb.height := by
        rw [displaySize] at inPicture
        omega
      have upTo : (j / 4 + 1) * fb.channels ≤ fb.sourceSize := Nat.mul_le_mul_right _ pixel
      rw [Nat.succ_mul] at upTo
      omega
    rw [Nat.zero_add, get!_extract (by omega) inside, Nat.add_assoc]

end EmulatorHost.FrameBuffer
