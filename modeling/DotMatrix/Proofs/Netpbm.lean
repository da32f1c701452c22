import DotMatrix.Netpbm
import DotMatrix.Proofs.Video.Picture

/-!
# Reading the pictures back

A plain netpbm picture is a sequence of words between white space: a magic word, the width, the
height, in colour the largest sample, and then nothing but the samples, as many as fill the picture.
Read like this, what is written of a frame is a picture of 160 by 144 that tells the empty pixels of
the frame from all others, in either format, and tells nothing else.

White space stands after every bit of a black and white picture, and before every sample of a colour
picture. So a text can be cut behind the white space in the one and in front of it in the other.
-/
namespace DotMatrix

/-- A picture as it is read: rows from top to bottom, each from left to right. -/
structure Picture (α : Type) where
  width : Nat
  height : Nat
  samples : List α
  full : samples.length = width * height

namespace Picture

/-- There has to be a sample for each point, and no more. -/
def ofSamples? {α : Type} (width height : Nat) (samples : List α) : Option (Picture α) :=
  if full : samples.length = width * height then some { width, height, samples, full } else none

def pixel? {α : Type} (picture : Picture α) (x y : Nat) : Option α :=
  if x < picture.width ∧ y < picture.height then picture.samples[picture.width * y + x]? else none

end Picture

namespace Netpbm

/-! ## The grammar -/

def words (text : List Char) : List (List Char) :=
  (text.splitOnP Char.isWhitespace).filter (· ≠ [])

/-- A decimal numeral and nothing else. -/
def numeral? (word : List Char) : Option Nat :=
  if word ≠ [] ∧ word.all Char.isDigit then some (Nat.ofDigitChars 10 word 0) else none

def bit? (word : List Char) : Option Bool :=
  if word = ['0'] then some false else if word = ['1'] then some true else none

/-- All in threes. -/
def triples? : List Nat → Option (List (Nat × Nat × Nat))
  | [] => some []
  | red :: green :: blue :: rest => (triples? rest).map ((red, green, blue) :: ·)
  | _ => none

def readPbm? (text : List Char) : Option (Picture Bool) :=
  match words text with
  | magic :: width :: height :: bits => do
    guard (magic = "P1".toList)
    Picture.ofSamples? (← numeral? width) (← numeral? height) (← bits.mapM bit?)
  | _ => none

/-- The largest sample that the picture may have, and the picture. -/
def readPpm? (text : List Char) : Option (Nat × Picture (Nat × Nat × Nat)) :=
  match words text with
  | magic :: width :: height :: limit :: samples => do
    guard (magic = "P3".toList)
    let limit ← numeral? limit
    let samples ← samples.mapM numeral?
    guard (∀ sample ∈ samples, sample ≤ limit)
    let picture ← Picture.ofSamples? (← numeral? width) (← numeral? height) (← triples? samples)
    return (limit, picture)
  | _ => none

/-! ## Words -/

theorem words_append {blank : Char} (h : blank.isWhitespace) (before after : List Char) :
    words (before ++ blank :: after) = words before ++ words after := by
  rw [words, List.splitOnP_append_cons before after h, List.filter_append]
  rfl

theorem words_cons {blank : Char} (h : blank.isWhitespace) (after : List Char) :
    words (blank :: after) = words after :=
  words_append h [] after

theorem words_of_solid {word : List Char} (nonempty : word ≠ [])
    (solid : ∀ c ∈ word, c.isWhitespace = false) : words word = [word] := by
  rw [words, List.splitOnP_eq_singleton solid]
  exact List.filter_cons_of_pos (decide_eq_true nonempty)

theorem mapM_map_of_reads {α β γ : Type} {read : β → Option γ} {write : α → β} {value : α → γ}
    (reads : ∀ a, read (write a) = some (value a)) (l : List α) :
    (l.map write).mapM read = some (l.map value) := by
  rw [List.mapM_map, show read ∘ write = pure ∘ value from funext reads]
  exact List.mapM_pure

theorem solid_of_isDigit {c : Char} (digit : c.isDigit) : c.isWhitespace = false := by
  rw [← Bool.not_eq_true]
  intro blank
  simp only [Char.isWhitespace, Bool.or_eq_true, decide_eq_true_eq] at blank
  rcases blank with ((rfl | rfl) | rfl) | rfl <;> exact absurd digit (by decide)

theorem isDigit_of_mem_toDigits {n : Nat} {c : Char} (member : c ∈ Nat.toDigits 10 n) : c.isDigit :=
  Nat.isDigit_of_mem_toDigits (by decide) (by decide) member

theorem words_toDigits (n : Nat) : words (Nat.toDigits 10 n) = [Nat.toDigits 10 n] :=
  words_of_solid Nat.toDigits_ne_nil fun _ member =>
    solid_of_isDigit (isDigit_of_mem_toDigits member)

theorem numeral?_toDigits (n : Nat) : numeral? (Nat.toDigits 10 n) = some n := by
  have digits : (Nat.toDigits 10 n).all Char.isDigit = true :=
    List.all_eq_true.2 fun _ => isDigit_of_mem_toDigits
  rw [numeral?, if_pos ⟨Nat.toDigits_ne_nil, digits⟩, Nat.ofDigitChars_ten_toDigits]

/-! ## Black and white -/

def bitWord (shade : Shade) : List Char := [if shade = 0 then '0' else '1']

theorem words_bitWord (shade : Shade) : words (bitWord shade) = [bitWord shade] := by
  by_cases empty : shade = 0
  · rw [bitWord, if_pos empty]
    exact words_toDigits 0
  · rw [bitWord, if_neg empty]
    exact words_toDigits 1

theorem bit?_bitWord (shade : Shade) : bit? (bitWord shade) = some (decide (shade ≠ 0)) := by
  by_cases empty : shade = 0 <;> simp [bit?, bitWord, empty]

theorem words_pbmRow (row : List Shade) (after : List Char) :
    words (pbmRow row ++ after) = row.map bitWord ++ words after := by
  induction row with
  | nil => exact words_cons rfl after
  | cons shade rest ih =>
    have cut : pbmRow (shade :: rest) ++ after =
        bitWord shade ++ ' ' :: (pbmRow rest ++ after) := rfl
    rw [cut, words_append rfl, ih, words_bitWord]
    rfl

theorem words_pbmRows (rows : List (List Shade)) (after : List Char) :
    words (rows.flatMap pbmRow ++ after) = rows.flatten.map bitWord ++ words after := by
  induction rows with
  | nil => rfl
  | cons row rest ih =>
    rw [List.flatMap_cons, List.append_assoc, words_pbmRow, ih, List.flatten_cons, List.map_append,
      List.append_assoc]

theorem words_pbm (rows : List (List Shade)) :
    words (pbm rows) =
      "P1".toList :: "160".toList :: "144".toList :: rows.flatten.map bitWord := by
  have cut : pbm rows = "P1\n160 144".toList ++ '\n' :: (rows.flatMap pbmRow ++ ['\n']) := rfl
  have header : words "P1\n160 144".toList = ["P1".toList, "160".toList, "144".toList] := by
    decide
  have last : words ['\n'] = [] := rfl
  rw [cut, words_append rfl, words_pbmRows, header, last, List.append_nil]
  rfl

theorem readPbm?_pbm {rows : List (List Shade)} (full : rows.flatten.length = 160 * 144) :
    ∃ picture, readPbm? (pbm rows) = some picture ∧ picture.width = 160 ∧ picture.height = 144 ∧
      picture.samples = rows.flatten.map fun shade => decide (shade ≠ 0) := by
  have bits := mapM_map_of_reads bit?_bitWord rows.flatten
  have sized : (rows.flatten.map fun shade => decide (shade ≠ 0)).length = 160 * 144 := by
    rw [List.length_map, full]
  have width : numeral? "160".toList = some 160 := numeral?_toDigits 160
  have height : numeral? "144".toList = some 144 := numeral?_toDigits 144
  refine ⟨⟨160, 144, _, sized⟩, ?_, rfl, rfl, rfl⟩
  rw [readPbm?, words_pbm]
  dsimp only
  rw [width, height, bits, guard, if_pos rfl]
  exact dif_pos sized

/-! ## In colour -/

/-- The samples of the colour that a shade is drawn in. -/
def samplesOf (shade : Shade) : List UInt8 :=
  let color := Color.ofIndex shade.val
  [color.red, color.green, color.blue]

def sampleWord (value : UInt8) : List Char := Nat.toDigits 10 value.toNat

theorem numeral?_sampleWord (value : UInt8) : numeral? (sampleWord value) = some value.toNat :=
  numeral?_toDigits value.toNat

theorem words_sampleText (before : List Char) (value : UInt8) :
    words (before ++ sampleText value) = words before ++ [sampleWord value] := by
  rw [sampleText, words_append rfl, words_toDigits, sampleWord]

theorem words_colorText (before : List Char) (shade : Shade) :
    words (before ++ colorText (Color.ofIndex shade.val)) =
      words before ++ (samplesOf shade).map sampleWord := by
  rw [colorText, ← List.append_assoc, ← List.append_assoc, words_sampleText, words_sampleText,
    words_sampleText, List.append_assoc, List.append_assoc]
  rfl

theorem words_ppmRow (before : List Char) (row : List Shade) :
    words (before ++ ppmRow row) = words before ++ (row.flatMap samplesOf).map sampleWord := by
  induction row generalizing before with
  | nil => exact words_append rfl before []
  | cons shade rest ih =>
    have cut : before ++ ppmRow (shade :: rest) =
        before ++ colorText (Color.ofIndex shade.val) ++ ppmRow rest := by
      simp only [ppmRow, List.flatMap_cons, List.append_assoc]
    rw [cut, ih, words_colorText, List.flatMap_cons, List.map_append, List.append_assoc]

theorem words_ppmRows (before : List Char) (rows : List (List Shade)) :
    words (before ++ rows.flatMap ppmRow) =
      words before ++ (rows.flatten.flatMap samplesOf).map sampleWord := by
  induction rows generalizing before with
  | nil => rw [List.flatMap_nil, List.append_nil]; exact (List.append_nil _).symm
  | cons row rest ih =>
    rw [List.flatMap_cons, ← List.append_assoc, ih, words_ppmRow, List.flatten_cons,
      List.flatMap_append, List.map_append, List.append_assoc]

theorem words_ppm (rows : List (List Shade)) :
    words (ppm rows) = "P3".toList :: "160".toList :: "144".toList :: "255".toList ::
      (rows.flatten.flatMap samplesOf).map sampleWord := by
  have newline : ('\n').isWhitespace := rfl
  have last : words [] = [] := rfl
  have header : words "P3 160 144 255\n".toList =
      ["P3".toList, "160".toList, "144".toList, "255".toList] := by decide
  calc words (ppm rows)
      = words ("P3 160 144 255\n".toList ++ rows.flatMap ppmRow) ++ words [] :=
        words_append newline _ []
    _ = words "P3 160 144 255\n".toList ++ (rows.flatten.flatMap samplesOf).map sampleWord := by
        rw [last, List.append_nil, words_ppmRows]
    _ = _ := congrArg (· ++ _) header

/-- The samples of a colour one by one. -/
def colorOf (shade : Shade) : Nat × Nat × Nat := if shade = 0 then (222, 249, 208) else (0, 0, 0)

theorem colorOf_eq_iff {shade : Shade} : colorOf shade = (222, 249, 208) ↔ shade = 0 := by
  unfold colorOf
  split <;> simp [*]

theorem map_samplesOf (shade : Shade) :
    (samplesOf shade).map UInt8.toNat =
      [(colorOf shade).1, (colorOf shade).2.1, (colorOf shade).2.2] := by
  by_cases empty : shade = 0
  · subst empty
    rfl
  · have drawn : shade.val ≠ 0 := fun zero => empty (Fin.ext zero)
    rw [samplesOf, Color.ofIndex, if_neg drawn, colorOf, if_neg empty]
    rfl

theorem triples?_samples (shades : List Shade) :
    triples? ((shades.flatMap samplesOf).map UInt8.toNat) = some (shades.map colorOf) := by
  induction shades with
  | nil => rfl
  | cons shade rest ih =>
    rw [List.flatMap_cons, List.map_append, map_samplesOf, List.map_cons]
    simp only [List.cons_append, List.nil_append, triples?, ih, Option.map_some]

theorem readPpm?_ppm {rows : List (List Shade)} (full : rows.flatten.length = 160 * 144) :
    ∃ picture, readPpm? (ppm rows) = some (255, picture) ∧ picture.width = 160 ∧
      picture.height = 144 ∧ picture.samples = rows.flatten.map colorOf := by
  have samples := mapM_map_of_reads numeral?_sampleWord (rows.flatten.flatMap samplesOf)
  have bounded : ∀ sample ∈ (rows.flatten.flatMap samplesOf).map UInt8.toNat, sample ≤ 255 := by
    intro sample member
    obtain ⟨value, -, rfl⟩ := List.mem_map.1 member
    exact Nat.le_of_lt_succ value.toNat_lt
  have sized : (rows.flatten.map colorOf).length = 160 * 144 := by rw [List.length_map, full]
  have width : numeral? "160".toList = some 160 := numeral?_toDigits 160
  have height : numeral? "144".toList = some 144 := numeral?_toDigits 144
  have limit : numeral? "255".toList = some 255 := numeral?_toDigits 255
  have picture : Picture.ofSamples? 160 144 (rows.flatten.map colorOf) =
      some ⟨160, 144, _, sized⟩ := dif_pos sized
  refine ⟨⟨160, 144, _, sized⟩, ?_, rfl, rfl, rfl⟩
  rw [readPpm?, words_ppm]
  dsimp only
  rw [guard, if_pos rfl, limit, samples, width, height]
  simp only [Option.bind_eq_bind, Option.bind_some, Option.pure_def, guard, if_pos bounded,
    triples?_samples, picture]

/-! ## Frames -/

theorem pixel?_of_samples {α : Type} {picture : Picture α} {frame : Frame} {value : Shade → α}
    (width : picture.width = 160) (height : picture.height = 144)
    (samples : picture.samples = frame.rows.flatten.map value) (x : Fin 160) (y : Fin 144) :
    picture.pixel? x y = (frame.pixel? x y).map value := by
  rw [Picture.pixel?, width, height, if_pos ⟨x.isLt, y.isLt⟩, samples, frame.flatten_rows,
    List.getElem?_map, Vector.getElem?_toList, Frame.pixel?]

theorem pixel?_eq_getElem (frame : Frame) (x : Fin 160) (y : Fin 144) :
    frame.pixel? x y = some (frame.pixels[160 * y.val + x.val]) :=
  Vector.getElem?_eq_getElem _

/-- A picture that two frames share has the empty pixels of both. -/
theorem empty_iff_of_pixel? {α : Type} {picture : Picture α} {value : Shade → α}
    (tells : ∀ shade, value shade = value 0 ↔ shade = 0) {frame other : Frame}
    {x : Fin 160} {y : Fin 144} (pixel : picture.pixel? x y = (frame.pixel? x y).map value)
    (otherPixel : picture.pixel? x y = (other.pixel? x y).map value) :
    frame.pixel? x y = some 0 ↔ other.pixel? x y = some 0 := by
  rw [pixel?_eq_getElem, Option.map_some] at pixel otherPixel
  rw [pixel?_eq_getElem, pixel?_eq_getElem, Option.some_inj, Option.some_inj, ← tells, ← tells,
    Option.some_inj.1 (pixel.symm.trans otherPixel)]

/-- Empty pixels as they are, all others alike. -/
def tone (shade : Shade) : Shade := if shade = 0 then 0 else 1

theorem tone_eq_zero_iff {shade : Shade} : tone shade = 0 ↔ shade = 0 := by
  unfold tone
  split <;> simp [*]

theorem ofIndex_tone (shade : Shade) :
    Color.ofIndex (tone shade).val = Color.ofIndex shade.val := by
  by_cases empty : shade = 0
  · rw [tone, if_pos empty, empty]
  · have drawn : shade.val ≠ 0 := fun zero => empty (Fin.ext zero)
    rw [tone, if_neg empty, Color.ofIndex, Color.ofIndex, if_neg drawn, if_neg (by decide)]

theorem pbmRow_tone (row : List Shade) : pbmRow (row.map tone) = pbmRow row := by
  simp only [pbmRow, List.flatMap_map, tone_eq_zero_iff]

theorem ppmRow_tone (row : List Shade) : ppmRow (row.map tone) = ppmRow row := by
  simp only [ppmRow, List.flatMap_map, ofIndex_tone]

theorem encode_congr {frame other : Frame}
    (same : frame.rows.map (List.map tone) = other.rows.map (List.map tone))
    (format : ImageFormat) : frame.encode format = other.encode format := by
  cases format with
  | pbm =>
    have rows := congrArg (List.flatMap pbmRow) same
    simp only [List.flatMap_map, pbmRow_tone] at rows
    exact congrArg (fun text => String.ofList ("P1\n160 144\n".toList ++ text ++ ['\n'])) rows
  | ppm =>
    have rows := congrArg (List.flatMap ppmRow) same
    simp only [List.flatMap_map, ppmRow_tone] at rows
    exact congrArg (fun text => String.ofList ("P3 160 144 255\n".toList ++ text ++ ['\n'])) rows

/-- Whether a shade is 0 is all that its tone tells. -/
theorem tone_eq_of_zero_iff {shade other : Shade} (same : shade = 0 ↔ other = 0) :
    tone shade = tone other := by
  by_cases empty : shade = 0
  · rw [empty, same.1 empty]
  · rw [tone, tone, if_neg empty, if_neg (mt same.2 empty)]

theorem map_rows_tone {frame other : Frame}
    (same : ∀ (x : Fin 160) (y : Fin 144), frame.pixel? x y = some 0 ↔ other.pixel? x y = some 0) :
    frame.rows.map (List.map tone) = other.rows.map (List.map tone) := by
  have tones : ∀ (y : Fin 144) (x : Fin 160),
      tone (frame.pixels[160 * y.val + x.val]) =
        tone (other.pixels[160 * y.val + x.val]) := by
    intro y x
    have both := same x y
    rw [pixel?_eq_getElem, pixel?_eq_getElem, Option.some_inj, Option.some_inj] at both
    exact tone_eq_of_zero_iff both
  simp only [Frame.rows, List.map_ofFn, Function.comp_def, tones]

end Netpbm

namespace Frame

variable (frame other : Frame)

theorem length_flatten_rows : frame.rows.flatten.length = 160 * 144 := by
  rw [frame.flatten_rows, Vector.length_toList]

theorem exists_readPbm?_encode :
    ∃ bits, Netpbm.readPbm? (frame.encode .pbm).toList = some bits ∧
      bits.width = 160 ∧ bits.height = 144 ∧
      ∀ (x : Fin 160) (y : Fin 144),
        bits.pixel? x y = (frame.pixel? x y).map fun shade => decide (shade ≠ 0) := by
  obtain ⟨bits, read, width, height, samples⟩ := Netpbm.readPbm?_pbm frame.length_flatten_rows
  refine ⟨bits, ?_, width, height, Netpbm.pixel?_of_samples width height samples⟩
  rw [Frame.encode, String.toList_ofList, read]

theorem exists_readPpm?_encode :
    ∃ colors, Netpbm.readPpm? (frame.encode .ppm).toList = some (255, colors) ∧
      colors.width = 160 ∧ colors.height = 144 ∧
      ∀ (x : Fin 160) (y : Fin 144),
        colors.pixel? x y = (frame.pixel? x y).map Netpbm.colorOf := by
  obtain ⟨colors, read, width, height, samples⟩ := Netpbm.readPpm?_ppm frame.length_flatten_rows
  refine ⟨colors, ?_, width, height, Netpbm.pixel?_of_samples width height samples⟩
  rw [Frame.encode, String.toList_ofList, read]

variable {frame other}

theorem empty_iff_of_encode_eq {format : ImageFormat}
    (same : frame.encode format = other.encode format) (x : Fin 160) (y : Fin 144) :
    frame.pixel? x y = some 0 ↔ other.pixel? x y = some 0 := by
  cases format with
  | pbm =>
    obtain ⟨bits, read, -, -, pixels⟩ := frame.exists_readPbm?_encode
    obtain ⟨others, readOther, -, -, otherPixels⟩ := other.exists_readPbm?_encode
    rw [same, readOther, Option.some_inj] at read
    subst read
    exact Netpbm.empty_iff_of_pixel? (by simp) (pixels x y) (otherPixels x y)
  | ppm =>
    obtain ⟨colors, read, -, -, pixels⟩ := frame.exists_readPpm?_encode
    obtain ⟨others, readOther, -, -, otherPixels⟩ := other.exists_readPpm?_encode
    rw [same, readOther, Option.some_inj, Prod.mk_inj] at read
    obtain ⟨-, rfl⟩ := read
    exact Netpbm.empty_iff_of_pixel? (fun _ => Netpbm.colorOf_eq_iff) (pixels x y)
      (otherPixels x y)

/-- The text of a frame is a whole picture of 160 by 144 in its format, with nothing missing and
nothing left over, and it tells the empty pixels from the others and no more. -/
theorem encode_tells_empty_pixels (frame : Frame) :
    (∃ bits colors, Netpbm.readPbm? (frame.encode .pbm).toList = some bits ∧
      Netpbm.readPpm? (frame.encode .ppm).toList = some (255, colors) ∧
      (bits.width = 160 ∧ bits.height = 144) ∧ (colors.width = 160 ∧ colors.height = 144) ∧
      ∀ (x : Fin 160) (y : Fin 144), ∃ shade, frame.pixel? x y = some shade ∧
        bits.pixel? x y = some (decide (shade ≠ 0)) ∧
        colors.pixel? x y = some (if shade = 0 then (222, 249, 208) else (0, 0, 0)) ∧
        (colors.pixel? x y = some (0, 0, 0) ↔ bits.pixel? x y = some true)) ∧
    ∀ (format : ImageFormat) (other : Frame),
      (frame.encode format).toUTF8 = (other.encode format).toUTF8 ↔
        ∀ (x : Fin 160) (y : Fin 144),
          frame.pixel? x y = some 0 ↔ other.pixel? x y = some 0 := by
  constructor
  · obtain ⟨bits, readBits, bitsWidth, bitsHeight, bit⟩ := frame.exists_readPbm?_encode
    obtain ⟨colors, readColors, colorsWidth, colorsHeight, color⟩ := frame.exists_readPpm?_encode
    refine ⟨bits, colors, readBits, readColors, ⟨bitsWidth, bitsHeight⟩,
      ⟨colorsWidth, colorsHeight⟩, fun x y => ?_⟩
    have bit := bit x y
    have color := color x y
    rw [Netpbm.pixel?_eq_getElem, Option.map_some] at bit color
    refine ⟨_, Netpbm.pixel?_eq_getElem frame x y, bit, color, ?_⟩
    rw [bit, color, Option.some_inj, Option.some_inj, decide_eq_true_iff, ne_eq,
      ← Netpbm.colorOf_eq_iff]
    unfold Netpbm.colorOf
    split <;> decide
  · intro format other
    constructor
    · intro bytes
      exact empty_iff_of_encode_eq (String.toByteArray_inj.1 bytes)
    · intro same
      rw [Netpbm.encode_congr (Netpbm.map_rows_tone same) format]

end Frame

end DotMatrix
