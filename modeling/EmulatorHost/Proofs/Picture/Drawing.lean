import EmulatorHost.Proofs.Act
import EmulatorHost.Proofs.Picture.Expansion

/-!
# Drawing in place

The expansion of a window, as what it does to the buffer it is given: row by row and pixel by pixel, each
byte looked up in the window and put into the buffer, either of which may run out.

* `FrameBuffer.draw`: the expansion in place.
* `FrameBuffer.drawRows_eq`: rows of pixels are one row of all pixels.
* **`FrameBuffer.report_draw`**: drawing in place is what `FrameBuffer.writeDisplay` says.
* **`FrameBuffer.draw_outcome`**: when it fails, when it panics, and what every byte is if it does neither.
-/

namespace EmulatorHost

namespace Act

variable {σ : Type}

/-- Does something for `n` numbers from `i` on, the least first. -/
def each (body : Nat → Act σ Unit) (i : Nat) : Nat → Act σ Unit
  | 0 => return
  | n + 1 => do
    body i
    each body (i + 1) n

theorem each_add (body : Nat → Act σ Unit) (i m n : Nat) :
    each body i (m + n) = each body i m >>= fun _ => each body (i + m) n := by
  induction m generalizing i with
  | zero => simp [each]
  | succ m ih =>
    rw [Nat.succ_add, each, each, bind_assoc, ih, Nat.add_right_comm, Nat.add_assoc]

theorem each_shift (body : Nat → Act σ Unit) (start i n : Nat) :
    each (fun j => body (start + j)) i n = each body (start + i) n := by
  induction n generalizing i with
  | zero => rfl
  | succ n ih => rw [each, each, ih, Nat.add_assoc]

theorem each_each (body : Nat → Act σ Unit) (width i n : Nat) :
    each (fun row => each (fun col => body (row * width + col)) 0 width) i n =
      each body (i * width) (n * width) := by
  induction n generalizing i with
  | zero => rw [Nat.zero_mul, each, each]
  | succ n ih =>
    rw [each, ih, each_shift, Nat.succ_mul, Nat.succ_mul, Nat.add_comm (n * width), each_add, Nat.add_zero]

end Act

/-- The panic of an index that is too large. -/
def Panic.index (length index : Nat) : Panic :=
  .text ("index out of bounds: the len is " ++ toString length ++ " but the index is " ++ toString index)

namespace FrameBuffer

/-- Puts a byte into a buffer. -/
def poke (i : Nat) (x : UInt8) : Act ByteArray Unit := fun b =>
  if i < b.size then .ok () (b.set! i x) else .error (.index b.size i) b

/-- Copies a byte of a window into a buffer. -/
def copy (window : ByteArray) (source target : Nat) : Act ByteArray Unit :=
  if source < window.size then poke target (window.get! source) else throw (.index window.size source)

/-- The window in a memory, if it lies inside. -/
def window? (fb : FrameBuffer) (memory : ByteArray) : Except FrameBufferError ByteArray :=
  if fb.Fits memory.size then .ok (memory.extract fb.base (fb.base + fb.sourceSize))
  else .error (.outOfBounds fb.base (fb.stop?.getD (addressSpace - 1)) memory.size)

/-- Draws a pixel whose bytes begin at `s` in the window and at `d` in the buffer. -/
def drawBytes (window : ByteArray) (s d : Nat) : Act ByteArray Unit := do
  copy window s d
  copy window (s + 1) (d + 1)
  copy window (s + 2) (d + 2)
  poke (d + 3) 255

/-- Draws a row of pixels. -/
def drawRow (fb : FrameBuffer) (window : ByteArray) (row : Nat) : Act ByteArray Unit :=
  .each (fun col => drawBytes window (row * fb.width * fb.channels + col * fb.channels)
    (row * fb.width * 4 + col * 4)) 0 fb.width

/-- Draws all rows. -/
def drawRows (fb : FrameBuffer) (window : ByteArray) : Act ByteArray Unit :=
  .each (fb.drawRow window) 0 fb.height

/-- Expands the window of a memory into the buffer. -/
def draw (fb : FrameBuffer) (memory : ByteArray) : Act ByteArray (Except FrameBufferError Unit) := do
  let out ← get
  if out.size ≠ fb.displaySize then return .error (.outputSize fb.displaySize out.size)
  match fb.window? memory with
  | .error e => return .error e
  | .ok window =>
    fb.drawRows window
    return .ok ()

/-! ## One row of all pixels -/

variable {fb : FrameBuffer} {memory out : ByteArray}

/-- Draws a pixel, by its number. -/
def drawPixel (fb : FrameBuffer) (window : ByteArray) (i : Nat) : Act ByteArray Unit :=
  drawBytes window (i * fb.channels) (i * 4)

theorem drawRows_eq (fb : FrameBuffer) (window : ByteArray) :
    fb.drawRows window = .each (fb.drawPixel window) 0 (fb.width * fb.height) := by
  have rows : fb.drawRow window =
      fun row => .each (fun col => fb.drawPixel window (row * fb.width + col)) 0 fb.width := by
    funext row
    simp only [drawRow, drawPixel, Nat.add_mul]
  rw [drawRows, rows, Act.each_each, Nat.zero_mul, Nat.mul_comm]

theorem poke_apply {i : Nat} (room : i < out.size) (x : UInt8) : poke i x out = .ok () (out.set! i x) :=
  if_pos room

theorem copy_apply {window : ByteArray} {source target : Nat} (inside : source < window.size)
    (room : target < out.size) :
    copy window source target out = .ok () (out.set! target (window.get! source)) := by
  rw [copy, if_pos inside, poke_apply room]

theorem copy_panics {window : ByteArray} {source : Nat} (outside : ¬ source < window.size) (target : Nat) :
    copy window source target out = .error (.index window.size source) out := by
  rw [copy, if_neg outside]
  rfl

theorem drawPixel_apply (inside : fb.base + fb.sourceSize ≤ memory.size) {i : Nat}
    (room : i * 4 + 4 ≤ out.size) :
    let window := memory.extract fb.base (fb.base + fb.sourceSize)
    (fb.drawPixel window i out = .ok () (fb.drawn memory i out) ∧
        ∀ n, fb.expand memory i (n + 1) out = fb.expand memory (i + 1) n (fb.drawn memory i out)) ∨
      ∃ p left, fb.drawPixel window i out = .error p left ∧
        ∀ n, fb.expand memory i (n + 1) out = .cut left := by
  intro window
  have size : window.size = fb.sourceSize := by
    rw [ByteArray.size_extract, Nat.min_eq_left inside, Nat.add_sub_cancel_left]
  have byte {s : Nat} (h : s < fb.sourceSize) : window.get! s = memory.get! (fb.base + s) :=
    get!_extract (by omega) inside
  unfold drawPixel drawBytes
  by_cases third : i * fb.channels + 2 < fb.sourceSize
  · refine .inl ⟨?_, fun n => ?_⟩
    · rw [Act.bind_apply, copy_apply (by omega) (by omega), byte (by omega)]
      dsimp only
      rw [Act.bind_apply, copy_apply (by omega) (by rw [size_set!]; omega), byte (by omega)]
      dsimp only
      rw [Act.bind_apply, copy_apply (by omega) (by simp only [size_set!]; omega), byte (by omega)]
      exact poke_apply (by simp only [size_set!]; omega) 255
    · rw [expand, if_pos third]
      rfl
  · refine .inr ?_
    by_cases second : i * fb.channels + 1 < fb.sourceSize
    · let a := fb.base + i * fb.channels
      let left := (out.set! (i * 4) (memory.get! a)).set! (i * 4 + 1) (memory.get! (a + 1))
      refine ⟨.index window.size (i * fb.channels + 2), left, ?_, fun n => ?_⟩
      · rw [Act.bind_apply, copy_apply (by omega) (by omega), byte (by omega)]
        dsimp only
        rw [Act.bind_apply, copy_apply (by omega) (by rw [size_set!]; omega), byte (by omega)]
        dsimp only
        rw [Act.bind_apply, copy_panics (by omega)]
        rfl
      · rw [expand, if_neg third, if_pos second]
    · by_cases first : i * fb.channels < fb.sourceSize
      · let left := out.set! (i * 4) (memory.get! (fb.base + i * fb.channels))
        refine ⟨.index window.size (i * fb.channels + 1), left, ?_, fun n => ?_⟩
        · rw [Act.bind_apply, copy_apply (by omega) (by omega), byte (by omega)]
          dsimp only
          rw [Act.bind_apply, copy_panics (by omega)]
        · rw [expand, if_neg third, if_neg second, if_pos first]
      · refine ⟨.index window.size (i * fb.channels), out, ?_, fun n => ?_⟩
        · rw [Act.bind_apply, copy_panics (by omega)]
        · rw [expand, if_neg third, if_neg second, if_neg first]

/-! ## What becomes of the buffer -/

/-- What is reported of a drawing. An error comes before anything is written. -/
def report : EStateM.Result Panic ByteArray (Except FrameBufferError Unit) → Except FrameBufferError Written
  | .ok (.ok ()) done => .ok (.whole done)
  | .ok (.error e) _ => .error e
  | .error _ left => .ok (.cut left)

theorem each_drawPixel (inside : fb.base + fb.sourceSize ≤ memory.size) (n i : Nat) (out : ByteArray)
    (room : (i + n) * 4 ≤ out.size) :
    let window := memory.extract fb.base (fb.base + fb.sourceSize)
    (∃ done, Act.each (fb.drawPixel window) i n out = .ok () done ∧ fb.expand memory i n out = .whole done) ∨
      ∃ p left, Act.each (fb.drawPixel window) i n out = .error p left ∧
        fb.expand memory i n out = .cut left := by
  intro window
  induction n generalizing i out with
  | zero => exact .inl ⟨out, rfl, rfl⟩
  | succ n ih =>
    rw [Act.each, Act.bind_apply]
    have pixel : i * 4 + 4 ≤ out.size := by omega
    rcases drawPixel_apply inside pixel with ⟨drawn, more⟩ | ⟨p, left, panicked, cut⟩
    · rw [drawn, more]
      exact ih (i + 1) _ (by rw [size_drawn]; omega)
    · rw [panicked, cut]
      exact .inr ⟨p, left, rfl, rfl⟩

theorem draw_of_size (room : out.size = fb.displaySize) :
    fb.draw memory out = match fb.window? memory with
      | .error e => .ok (.error e) out
      | .ok window => match fb.drawRows window out with
        | .ok _ done => .ok (.ok ()) done
        | .error p left => .error p left := by
  unfold draw
  rw [Act.bind_apply]
  change (if out.size ≠ fb.displaySize then _ else _ : Act ByteArray (Except FrameBufferError Unit)) out = _
  rw [if_neg (not_not_intro room)]
  cases fb.window? memory with
  | error e => rfl
  | ok window =>
    change (fb.drawRows window >>= fun _ => pure (.ok ()) :
      Act ByteArray (Except FrameBufferError Unit)) out = _
    rw [Act.bind_apply]
    dsimp only
    cases fb.drawRows window out <;> rfl

theorem draw_of_size_ne (other : out.size ≠ fb.displaySize) :
    fb.draw memory out = .ok (.error (.outputSize fb.displaySize out.size)) out := by
  unfold draw
  rw [Act.bind_apply]
  change (if out.size ≠ fb.displaySize then _ else _ : Act ByteArray (Except FrameBufferError Unit)) out = _
  rw [if_pos other]
  rfl

theorem getD_stop? (fb : FrameBuffer) : fb.stop?.getD (addressSpace - 1) =
    if fb.base + fb.sourceSize < addressSpace then fb.base + fb.sourceSize else addressSpace - 1 := by
  unfold stop?
  split_ifs <;> rfl

/-- **Drawing in place is the expansion of the window.** -/
theorem report_draw (fb : FrameBuffer) (memory out : ByteArray) :
    report (fb.draw memory out) = fb.writeDisplay memory out := by
  by_cases room : out.size = fb.displaySize
  · rw [draw_of_size room, writeDisplay, if_neg (not_not_intro room), window?]
    by_cases fits : fb.Fits memory.size
    · have drawn := each_drawPixel fits.inside (fb.width * fb.height) 0 out (by rw [room, displaySize]; omega)
      rw [if_pos fits, if_pos fits]
      dsimp only
      rw [drawRows_eq]
      rcases drawn with ⟨done, drawn, whole⟩ | ⟨p, left, panicked, cut⟩
      · rw [drawn, whole]
        rfl
      · rw [panicked, cut]
        rfl
    · rw [if_neg fits, if_neg fits]
      rfl
  · rw [draw_of_size_ne room, writeDisplay, if_pos room]
    rfl

/-- A window with less than three bytes a pixel runs out at the last pixel. -/
theorem expand_cut (few : fb.channels < 3) (memory : ByteArray) (n i : Nat) (out : ByteArray)
    (last : i + (n + 1) = fb.width * fb.height) : ∃ left, fb.expand memory i (n + 1) out = .cut left := by
  induction n generalizing i out with
  | zero =>
    have size : fb.sourceSize = i * fb.channels + fb.channels := by
      rw [sourceSize, ← last, Nat.zero_add, Nat.succ_mul]
    rw [expand, if_neg (by omega)]
    split_ifs
    all_goals exact ⟨_, rfl⟩
  | succ n ih =>
    rw [expand]
    split_ifs
    · exact ih (i + 1) _ (by omega)
    all_goals exact ⟨_, rfl⟩

/-! ## Outcomes -/

theorem writeDisplay_whole (colours : 3 ≤ fb.channels ∨ fb.width * fb.height = 0)
    (room : out.size = fb.displaySize) (fits : fb.Fits memory.size) :
    fb.writeDisplay memory out = .ok (.whole (fb.picture memory)) := by
  rcases colours with colours | none
  · exact writeDisplay_of_fits colours room fits
  · have empty : fb.displaySize = 0 := by rw [displaySize, none, Nat.zero_mul]
    have same : out = fb.picture memory := by
      refine ext_get! (by rw [room, size_picture]) fun j h => ?_
      rw [room, empty] at h
      exact absurd h (Nat.not_lt_zero j)
    rw [writeDisplay, if_neg (not_not_intro room), if_pos fits, none, expand, ← same]

theorem writeDisplay_cut (few : fb.channels < 3) (some : 0 < fb.width * fb.height)
    (room : out.size = fb.displaySize) (fits : fb.Fits memory.size) :
    ∃ left, fb.writeDisplay memory out = .ok (.cut left) := by
  have last : 0 + (fb.width * fb.height - 1 + 1) = fb.width * fb.height := by omega
  obtain ⟨left, cut⟩ := expand_cut few memory _ 0 out last
  rw [Nat.sub_add_cancel some] at cut
  exact ⟨left, by rw [writeDisplay, if_neg (not_not_intro room), if_pos fits, cut]⟩

theorem writeDisplay_misfit (room : out.size = fb.displaySize) (misfit : ¬ fb.Fits memory.size) :
    fb.writeDisplay memory out =
      .error (.outOfBounds fb.base (fb.stop?.getD (addressSpace - 1)) memory.size) := by
  rw [writeDisplay, if_neg (not_not_intro room), if_neg misfit]

theorem eq_of_report {drawing : EStateM.Result Panic ByteArray (Except FrameBufferError Unit)}
    {done : ByteArray} (h : report drawing = .ok (.whole done)) : drawing = .ok (.ok ()) done := by
  rcases drawing with ⟨_ | _, _⟩ | _
  · cases h
  · cases h
    rfl
  · cases h

theorem panics_of_report {drawing : EStateM.Result Panic ByteArray (Except FrameBufferError Unit)}
    {left : ByteArray} (h : report drawing = .ok (.cut left)) : ∃ p, drawing = .error p left := by
  rcases drawing with ⟨_ | _, _⟩ | ⟨p, _⟩
  · cases h
  · cases h
  · cases h
    exact ⟨p, rfl⟩

theorem picture_pixel (colours : 3 ≤ fb.channels ∨ fb.width * fb.height = 0) (memory : ByteArray) {row col : Nat} (hrow : row < fb.height)
    (hcol : col < fb.width) :
    let i := row * fb.width + col
    (∀ k < 3, fb.channels * i + k < fb.sourceSize ∧
        (fb.picture memory).get! (4 * i + k) = memory.get! (fb.base + fb.channels * i + k)) ∧
      (fb.picture memory).get! (4 * i + 3) = 255 := by
  intro i
  have pixel : i + 1 ≤ fb.width * fb.height := by
    have upTo : (row + 1) * fb.width ≤ fb.height * fb.width := Nat.mul_le_mul_right _ hrow
    rw [Nat.succ_mul, Nat.mul_comm fb.height] at upTo
    omega
  have wide : 3 ≤ fb.channels := colours.resolve_right (Nat.ne_of_gt (Nat.zero_lt_of_lt pixel))
  have size : 4 * i + 4 ≤ fb.displaySize := by
    rw [displaySize]
    omega
  have source : fb.channels * i + fb.channels ≤ fb.sourceSize := by
    have upTo : fb.channels * (i + 1) ≤ fb.channels * (fb.width * fb.height) := Nat.mul_le_mul_left _ pixel
    rwa [Nat.mul_succ, Nat.mul_comm fb.channels (fb.width * fb.height)] at upTo
  refine ⟨fun k hk => ⟨by omega, ?_⟩, ?_⟩
  · rw [get!_picture (by omega), pictureByte, if_neg (by omega), show (4 * i + k) / 4 = i by omega,
      show (4 * i + k) % 4 = k by omega, Nat.mul_comm i]
  · rw [get!_picture (by omega), pictureByte, if_pos (by omega)]

theorem exists_pixel {j : Nat} (h : j < fb.width * fb.height * 4) :
    ∃ row < fb.height, ∃ col < fb.width, ∃ k < 4, j = 4 * (row * fb.width + col) + k := by
  have pixel : j / 4 < fb.width * fb.height := by omega
  have wide : 0 < fb.width := Nat.pos_of_mul_pos_right (Nat.zero_lt_of_lt pixel)
  refine ⟨j / 4 / fb.width, Nat.div_lt_of_lt_mul pixel, j / 4 % fb.width, Nat.mod_lt _ wide, j % 4,
    Nat.mod_lt _ (by omega), ?_⟩
  rw [Nat.mul_comm (j / 4 / fb.width), Nat.div_add_mod, Nat.div_add_mod]

theorem draw_congr {memory' : ByteArray} (size : memory'.size = memory.size)
    (same : ∀ a, fb.base ≤ a → a < fb.base + fb.sourceSize → memory'.get! a = memory.get! a)
    (out : ByteArray) : fb.draw memory' out = fb.draw memory out := by
  have window : fb.window? memory' = fb.window? memory := by
    unfold window?
    rw [size]
    by_cases fits : fb.Fits memory.size
    · have inside := fits.inside
      have window : memory'.extract fb.base (fb.base + fb.sourceSize) =
          memory.extract fb.base (fb.base + fb.sourceSize) := by
        refine ext_get! (by rw [ByteArray.size_extract, ByteArray.size_extract, size]) fun j h => ?_
        rw [ByteArray.size_extract, size] at h
        rw [get!_extract (by omega) (by omega), get!_extract (by omega) inside, same _ (by omega) (by omega)]
      rw [if_pos fits, if_pos fits, window]
    · rw [if_neg fits, if_neg fits]
  unfold draw
  rw [window]

/-- An error comes before anything is written, and the size of the buffer is looked at first. -/
theorem draw_eq_error {e : FrameBufferError} {left : ByteArray} :
    fb.draw memory out = .ok (.error e) left ↔ left = out ∧
      (out.size ≠ fb.displaySize ∧ e = .outputSize fb.displaySize out.size ∨
        out.size = fb.displaySize ∧ ¬ fb.Fits memory.size ∧
          e = .outOfBounds fb.base (fb.stop?.getD (addressSpace - 1)) memory.size) := by
  by_cases room : out.size = fb.displaySize
  · rw [draw_of_size room, window?]
    by_cases fits : fb.Fits memory.size
    · rw [if_pos fits]
      dsimp only
      cases fb.drawRows _ out <;> simp [room, fits]
    · rw [if_neg fits]
      simp only [EStateM.Result.ok.injEq, Except.error.injEq]
      constructor
      · rintro ⟨rfl, rfl⟩
        exact ⟨rfl, .inr ⟨room, fits, rfl⟩⟩
      · rintro ⟨rfl, ⟨other, -⟩ | ⟨-, -, rfl⟩⟩
        · exact absurd room other
        · exact ⟨rfl, rfl⟩
  · rw [draw_of_size_ne room]
    simp only [EStateM.Result.ok.injEq, Except.error.injEq]
    constructor
    · rintro ⟨rfl, rfl⟩
      exact ⟨rfl, .inl ⟨room, rfl⟩⟩
    · rintro ⟨rfl, ⟨-, rfl⟩ | ⟨same, -⟩⟩
      · exact ⟨rfl, rfl⟩
      · exact absurd same room

theorem toDisplay_eq_error {e : FrameBufferError} :
    fb.toDisplay memory = .error e ↔ ¬ fb.Fits memory.size ∧
      e = .outOfBounds fb.base (fb.stop?.getD (addressSpace - 1)) memory.size := by
  have room : (filled fb.displaySize 255).size = fb.displaySize := size_filled _ 255
  by_cases fits : fb.Fits memory.size
  · rw [toDisplay, writeDisplay, if_neg (not_not_intro room), if_pos fits]
    constructor
    · intro h
      cases h
    · intro h
      exact absurd fits h.1
  · rw [toDisplay, writeDisplay_misfit room fits, Except.error.injEq]
    exact ⟨fun h => ⟨fits, h.symm⟩, fun h => h.2.symm⟩

/-- **What comes of a drawing.** It fails exactly if the buffer has the wrong size, or else if the window
does not lie inside the memory, and then leaves the buffer alone. Otherwise, with three bytes a pixel or more
or with no pixel at all, it answers, and every byte of the buffer is one of a pixel: three bytes of the
window, and an opaque one. With fewer bytes a pixel it panics. The same goes for a picture in a new buffer.
And what comes of it depends on the size of the memory and on the bytes of the window only. -/
theorem draw_outcome (fb : FrameBuffer) (memory out : ByteArray) :
    let pixels := fb.width * fb.height
    let stop := fb.base + pixels * fb.channels
    let inside := stop < addressSpace ∧ stop ≤ memory.size
    let misfit := FrameBufferError.outOfBounds fb.base (if stop < addressSpace then stop else addressSpace - 1)
      memory.size
    let drawing := fb.draw memory out
    fb.writeDisplay memory out = report drawing ∧
      (drawing = .ok (.error (.outputSize (pixels * 4) out.size)) out ↔ out.size ≠ pixels * 4) ∧
      (out.size = pixels * 4 → (drawing = .ok (.error misfit) out ↔ ¬ inside)) ∧
      (fb.toDisplay memory = .error misfit ↔ ¬ inside) ∧
      (inside → 3 ≤ fb.channels ∨ pixels = 0 → ∃ done, fb.toDisplay memory = .ok (.whole done) ∧
        (out.size = pixels * 4 → drawing = .ok (.ok ()) done) ∧ done.size = pixels * 4 ∧
        (∀ row < fb.height, ∀ col < fb.width,
          let i := row * fb.width + col
          (∀ k < 3, fb.base + fb.channels * i + k < stop ∧
            done.get! (4 * i + k) = memory.get! (fb.base + fb.channels * i + k)) ∧
          done.get! (4 * i + 3) = 255) ∧
        ∀ j < done.size, ∃ row < fb.height, ∃ col < fb.width, ∃ k < 4, j = 4 * (row * fb.width + col) + k) ∧
      (inside → fb.channels < 3 → 0 < pixels → (∃ left, fb.toDisplay memory = .ok (.cut left)) ∧
        (out.size = pixels * 4 → ∃ p left, drawing = .error p left)) ∧
      ∀ memory' : ByteArray, memory'.size = memory.size →
        (∀ a, fb.base ≤ a → a < stop → memory'.get! a = memory.get! a) →
        fb.draw memory' out = drawing ∧ fb.toDisplay memory' = fb.toDisplay memory := by
  intro pixels stop inside misfit drawing
  have reported : report drawing = fb.writeDisplay memory out := report_draw fb memory out
  have fits : fb.Fits memory.size ↔ inside := fits_iff_stop
  have stops : fb.stop?.getD (addressSpace - 1) = if stop < addressSpace then stop else addressSpace - 1 :=
    fb.getD_stop?
  have fresh : (filled fb.displaySize 255).size = fb.displaySize := size_filled _ 255
  refine ⟨reported.symm, ?_, fun room => ?_, ?_, fun within colours => ?_, fun within few some => ?_,
    fun memory' size same => ?_⟩
  · rw [draw_eq_error]
    refine ⟨?_, fun other => ⟨rfl, .inl ⟨other, rfl⟩⟩⟩
    rintro ⟨-, ⟨other, -⟩ | ⟨-, -, h⟩⟩
    · exact other
    · cases h
  · rw [draw_eq_error, stops, fits]
    refine ⟨?_, fun outside => ⟨rfl, .inr ⟨room, outside, rfl⟩⟩⟩
    rintro ⟨-, ⟨other, -⟩ | ⟨-, outside, -⟩⟩
    · exact absurd room other
    · exact outside
  · rw [toDisplay_eq_error, stops, fits]
    exact ⟨fun h => h.1, fun outside => ⟨outside, rfl⟩⟩
  · refine ⟨fb.picture memory, writeDisplay_whole colours fresh (fits.mpr within), fun room => ?_, size_picture fb memory,
      fun row hrow col hcol => ?_, fun j h => exists_pixel (by rwa [size_picture] at h)⟩
    · exact eq_of_report (reported.trans (writeDisplay_whole colours room (fits.mpr within)))
    · obtain ⟨colour, alpha⟩ := picture_pixel colours memory hrow hcol
      refine ⟨fun k hk => ⟨?_, (colour k hk).2⟩, alpha⟩
      rw [Nat.add_assoc]
      exact Nat.add_lt_add_left (colour k hk).1 fb.base
  · refine ⟨writeDisplay_cut few some fresh (fits.mpr within), fun room => ?_⟩
    obtain ⟨left, cut⟩ := writeDisplay_cut few some room (fits.mpr within)
    obtain ⟨p, panicked⟩ := panics_of_report (reported.trans cut)
    exact ⟨p, left, panicked⟩
  · refine ⟨draw_congr size same out, ?_⟩
    rw [toDisplay, ← report_draw, draw_congr size same, report_draw, ← toDisplay]

/-- Two pixels, with a byte in front of them and one behind. -/
def twoPixels : ByteArray := ⟨#[0, 1, 2, 3, 4, 5, 6, 0]⟩

theorem draw_outcome_twoPixels :
    ∃ done, draw ⟨1, 2, 1, 3⟩ twoPixels (filled 8 0) = .ok (.ok ()) done ∧ done.size = 8 ∧
      done.get! 4 = twoPixels.get! 4 ∧ done.get! 7 = 255 := by
  obtain ⟨-, -, -, -, whole, -⟩ := draw_outcome ⟨1, 2, 1, 3⟩ twoPixels (filled 8 0)
  obtain ⟨done, -, drawn, size, pixels, -⟩ := whole (by decide) (.inl (by decide))
  obtain ⟨colours, alpha⟩ := pixels 0 (by decide) 1 (by decide)
  exact ⟨done, drawn (by decide), size, (colours 0 (by decide)).2, alpha⟩

example : draw ⟨1, 2, 1, 3⟩ twoPixels (filled 8 0) = .ok (.ok ()) ⟨#[1, 2, 3, 255, 4, 5, 6, 255]⟩ := rfl

end FrameBuffer

end EmulatorHost
