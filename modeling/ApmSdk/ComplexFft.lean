import ApmSdk.ButterflyNetwork
import ApmSdk.CIntegers

namespace ApmSdk.ComplexFft

/-!
# The fixed-point Fourier transforms

The transforms work in place on pairs of 16-bit integers, a stage at a time, on a table of
sines.  The forward transform halves its results in every stage; the inverse one finds in
every stage how far it has to scale them down.
-/

open BitReversal ButterflyNetwork

/-- Two neighbouring places of a complex buffer. -/
structure Complex16 where
  re : Int
  im : Int
deriving DecidableEq

/-! ## `complex_bit_reverse.c` -/

/-- `index_7` -/
def index7 : List Nat :=
  [1, 64, 2, 32, 3, 96, 4, 16, 5, 80, 6, 48, 7, 112, 9, 72, 10, 40, 11, 104, 12, 24, 13, 88, 14,
    56, 15, 120, 17, 68, 18, 36, 19, 100, 21, 84, 22, 52, 23, 116, 25, 76, 26, 44, 27, 108, 29, 92,
    30, 60, 31, 124, 33, 66, 35, 98, 37, 82, 38, 50, 39, 114, 41, 74, 43, 106, 45, 90, 46, 58, 47,
    122, 49, 70, 51, 102, 53, 86, 55, 118, 57, 78, 59, 110, 61, 94, 63, 126, 67, 97, 69, 81, 71,
    113, 75, 105, 77, 89, 79, 121, 83, 101, 87, 117, 91, 109, 95, 125, 103, 115, 111, 123]

/-- `index_8` -/
def index8 : List Nat :=
  [1, 128, 2, 64, 3, 192, 4, 32, 5, 160, 6, 96, 7, 224, 8, 16, 9, 144, 10, 80, 11, 208, 12, 48,
    13, 176, 14, 112, 15, 240, 17, 136, 18, 72, 19, 200, 20, 40, 21, 168, 22, 104, 23, 232, 25,
    152, 26, 88, 27, 216, 28, 56, 29, 184, 30, 120, 31, 248, 33, 132, 34, 68, 35, 196, 37, 164, 38,
    100, 39, 228, 41, 148, 42, 84, 43, 212, 44, 52, 45, 180, 46, 116, 47, 244, 49, 140, 50, 76, 51,
    204, 53, 172, 54, 108, 55, 236, 57, 156, 58, 92, 59, 220, 61, 188, 62, 124, 63, 252, 65, 130,
    67, 194, 69, 162, 70, 98, 71, 226, 73, 146, 74, 82, 75, 210, 77, 178, 78, 114, 79, 242, 81,
    138, 83, 202, 85, 170, 86, 106, 87, 234, 89, 154, 91, 218, 93, 186, 94, 122, 95, 250, 97, 134,
    99, 198, 101, 166, 103, 230, 105, 150, 107, 214, 109, 182, 110, 118, 111, 246, 113, 142, 115,
    206, 117, 174, 119, 238, 121, 158, 123, 222, 125, 190, 127, 254, 131, 193, 133, 161, 135, 225,
    137, 145, 139, 209, 141, 177, 143, 241, 147, 201, 149, 169, 151, 233, 155, 217, 157, 185, 159,
    249, 163, 197, 167, 229, 171, 213, 173, 181, 175, 245, 179, 205, 183, 237, 187, 221, 191, 253,
    199, 227, 203, 211, 207, 243, 215, 235, 223, 251, 239, 247]

/-- The loop over the pairs of a table. -/
def swapPairs {Cell : Type*} : List Nat → (Nat → Cell) → Nat → Cell
  | left :: right :: index, complexData => swapPairs index (swap left right complexData)
  | _, complexData => complexData

/-- The loop for `l`. -/
def halvedWhileAbove (room l : Nat) : Nat :=
  if room < l / 2 then halvedWhileAbove room (l / 2) else l / 2
termination_by l

/-- The loop over `m`, with the places that are left. -/
def reorderFrom {Cell : Type*} (n : Nat) : Nat → Nat → Nat → (Nat → Cell) → Nat → Cell
  | 0, _, _, complexData => complexData
  | left + 1, m, mr, complexData =>
      let l := halvedWhileAbove (n - 1 - mr) n
      let mr := (mr &&& (l - 1)) + l
      reorderFrom n left (m + 1) mr
        (if mr ≤ m then complexData else swap m mr complexData)

/-- `WebRtcSpl_ComplexBitReverse` -/
def complexBitReverse {Cell : Type*} (complexData : Nat → Cell) (stages : Nat) : Nat → Cell :=
  if stages = 7 then swapPairs index7 complexData
  else if stages = 8 then swapPairs index8 complexData
  else reorderFrom (2 ^ stages) (2 ^ stages - 1) 1 0 complexData

/-! ## `complex_fft.c` -/

/-- The first quarter of `kSinTable1024`. -/
def sinRising : List Int :=
  [0, 201, 402, 603, 804, 1005, 1206, 1406, 1607, 1808, 2009, 2209, 2410, 2610, 2811, 3011, 3211,
    3411, 3611, 3811, 4011, 4210, 4409, 4608, 4807, 5006, 5205, 5403, 5601, 5799, 5997, 6195, 6392,
    6589, 6786, 6982, 7179, 7375, 7571, 7766, 7961, 8156, 8351, 8545, 8739, 8932, 9126, 9319, 9511,
    9703, 9895, 10087, 10278, 10469, 10659, 10849, 11038, 11227, 11416, 11604, 11792, 11980, 12166,
    12353, 12539, 12724, 12909, 13094, 13278, 13462, 13645, 13827, 14009, 14191, 14372, 14552,
    14732, 14911, 15090, 15268, 15446, 15623, 15799, 15975, 16150, 16325, 16499, 16672, 16845,
    17017, 17189, 17360, 17530, 17699, 17868, 18036, 18204, 18371, 18537, 18702, 18867, 19031,
    19194, 19357, 19519, 19680, 19840, 20000, 20159, 20317, 20474, 20631, 20787, 20942, 21096,
    21249, 21402, 21554, 21705, 21855, 22004, 22153, 22301, 22448, 22594, 22739, 22883, 23027,
    23169, 23311, 23452, 23592, 23731, 23869, 24006, 24143, 24278, 24413, 24546, 24679, 24811,
    24942, 25072, 25201, 25329, 25456, 25582, 25707, 25831, 25954, 26077, 26198, 26318, 26437,
    26556, 26673, 26789, 26905, 27019, 27132, 27244, 27355, 27466, 27575, 27683, 27790, 27896,
    28001, 28105, 28208, 28309, 28410, 28510, 28608, 28706, 28802, 28897, 28992, 29085, 29177,
    29268, 29358, 29446, 29534, 29621, 29706, 29790, 29873, 29955, 30036, 30116, 30195, 30272,
    30349, 30424, 30498, 30571, 30643, 30713, 30783, 30851, 30918, 30984, 31049, 31113, 31175,
    31236, 31297, 31356, 31413, 31470, 31525, 31580, 31633, 31684, 31735, 31785, 31833, 31880,
    31926, 31970, 32014, 32056, 32097, 32137, 32176, 32213, 32249, 32284, 32318, 32350, 32382,
    32412, 32441, 32468, 32495, 32520, 32544, 32567, 32588, 32609, 32628, 32646, 32662, 32678,
    32692, 32705, 32717, 32727, 32736, 32744, 32751, 32757, 32761, 32764, 32766]

/-- The second quarter of `kSinTable1024`. -/
def sinFalling : List Int :=
  [32767, 32766, 32764, 32761, 32757, 32751, 32744, 32736, 32727, 32717, 32705, 32692, 32678,
    32662, 32646, 32628, 32609, 32588, 32567, 32544, 32520, 32495, 32468, 32441, 32412, 32382,
    32350, 32318, 32284, 32249, 32213, 32176, 32137, 32097, 32056, 32014, 31970, 31926, 31880,
    31833, 31785, 31735, 31684, 31633, 31580, 31525, 31470, 31413, 31356, 31297, 31236, 31175,
    31113, 31049, 30984, 30918, 30851, 30783, 30713, 30643, 30571, 30498, 30424, 30349, 30272,
    30195, 30116, 30036, 29955, 29873, 29790, 29706, 29621, 29534, 29446, 29358, 29268, 29177,
    29085, 28992, 28897, 28802, 28706, 28608, 28510, 28410, 28309, 28208, 28105, 28001, 27896,
    27790, 27683, 27575, 27466, 27355, 27244, 27132, 27019, 26905, 26789, 26673, 26556, 26437,
    26318, 26198, 26077, 25954, 25831, 25707, 25582, 25456, 25329, 25201, 25072, 24942, 24811,
    24679, 24546, 24413, 24278, 24143, 24006, 23869, 23731, 23592, 23452, 23311, 23169, 23027,
    22883, 22739, 22594, 22448, 22301, 22153, 22004, 21855, 21705, 21554, 21402, 21249, 21096,
    20942, 20787, 20631, 20474, 20317, 20159, 20000, 19840, 19680, 19519, 19357, 19194, 19031,
    18867, 18702, 18537, 18371, 18204, 18036, 17868, 17699, 17530, 17360, 17189, 17017, 16845,
    16672, 16499, 16325, 16150, 15975, 15799, 15623, 15446, 15268, 15090, 14911, 14732, 14552,
    14372, 14191, 14009, 13827, 13645, 13462, 13278, 13094, 12909, 12724, 12539, 12353, 12166,
    11980, 11792, 11604, 11416, 11227, 11038, 10849, 10659, 10469, 10278, 10087, 9895, 9703, 9511,
    9319, 9126, 8932, 8739, 8545, 8351, 8156, 7961, 7766, 7571, 7375, 7179, 6982, 6786, 6589, 6392,
    6195, 5997, 5799, 5601, 5403, 5205, 5006, 4807, 4608, 4409, 4210, 4011, 3811, 3611, 3411, 3211,
    3011, 2811, 2610, 2410, 2209, 2009, 1808, 1607, 1406, 1206, 1005, 804, 603, 402, 201]

/-- The third quarter of `kSinTable1024`. -/
def sinBelow : List Int :=
  [0, -201, -402, -603, -804, -1005, -1206, -1406, -1607, -1808, -2009, -2209, -2410, -2610,
    -2811, -3011, -3211, -3411, -3611, -3811, -4011, -4210, -4409, -4608, -4807, -5006, -5205,
    -5403, -5601, -5799, -5997, -6195, -6392, -6589, -6786, -6982, -7179, -7375, -7571, -7766,
    -7961, -8156, -8351, -8545, -8739, -8932, -9126, -9319, -9511, -9703, -9895, -10087, -10278,
    -10469, -10659, -10849, -11038, -11227, -11416, -11604, -11792, -11980, -12166, -12353, -12539,
    -12724, -12909, -13094, -13278, -13462, -13645, -13827, -14009, -14191, -14372, -14552, -14732,
    -14911, -15090, -15268, -15446, -15623, -15799, -15975, -16150, -16325, -16499, -16672, -16845,
    -17017, -17189, -17360, -17530, -17699, -17868, -18036, -18204, -18371, -18537, -18702, -18867,
    -19031, -19194, -19357, -19519, -19680, -19840, -20000, -20159, -20317, -20474, -20631, -20787,
    -20942, -21096, -21249, -21402, -21554, -21705, -21855, -22004, -22153, -22301, -22448, -22594,
    -22739, -22883, -23027, -23169, -23311, -23452, -23592, -23731, -23869, -24006, -24143, -24278,
    -24413, -24546, -24679, -24811, -24942, -25072, -25201, -25329, -25456, -25582, -25707, -25831,
    -25954, -26077, -26198, -26318, -26437, -26556, -26673, -26789, -26905, -27019, -27132, -27244,
    -27355, -27466, -27575, -27683, -27790, -27896, -28001, -28105, -28208, -28309, -28410, -28510,
    -28608, -28706, -28802, -28897, -28992, -29085, -29177, -29268, -29358, -29446, -29534, -29621,
    -29706, -29790, -29873, -29955, -30036, -30116, -30195, -30272, -30349, -30424, -30498, -30571,
    -30643, -30713, -30783, -30851, -30918, -30984, -31049, -31113, -31175, -31236, -31297, -31356,
    -31413, -31470, -31525, -31580, -31633, -31684, -31735, -31785, -31833, -31880, -31926, -31970,
    -32014, -32056, -32097, -32137, -32176, -32213, -32249, -32284, -32318, -32350, -32382, -32412,
    -32441, -32468, -32495, -32520, -32544, -32567, -32588, -32609, -32628, -32646, -32662, -32678,
    -32692, -32705, -32717, -32727, -32736, -32744, -32751, -32757, -32761, -32764, -32766]

/-- The last quarter of `kSinTable1024`. -/
def sinReturning : List Int :=
  [-32767, -32766, -32764, -32761, -32757, -32751, -32744, -32736, -32727, -32717, -32705, -32692,
    -32678, -32662, -32646, -32628, -32609, -32588, -32567, -32544, -32520, -32495, -32468, -32441,
    -32412, -32382, -32350, -32318, -32284, -32249, -32213, -32176, -32137, -32097, -32056, -32014,
    -31970, -31926, -31880, -31833, -31785, -31735, -31684, -31633, -31580, -31525, -31470, -31413,
    -31356, -31297, -31236, -31175, -31113, -31049, -30984, -30918, -30851, -30783, -30713, -30643,
    -30571, -30498, -30424, -30349, -30272, -30195, -30116, -30036, -29955, -29873, -29790, -29706,
    -29621, -29534, -29446, -29358, -29268, -29177, -29085, -28992, -28897, -28802, -28706, -28608,
    -28510, -28410, -28309, -28208, -28105, -28001, -27896, -27790, -27683, -27575, -27466, -27355,
    -27244, -27132, -27019, -26905, -26789, -26673, -26556, -26437, -26318, -26198, -26077, -25954,
    -25831, -25707, -25582, -25456, -25329, -25201, -25072, -24942, -24811, -24679, -24546, -24413,
    -24278, -24143, -24006, -23869, -23731, -23592, -23452, -23311, -23169, -23027, -22883, -22739,
    -22594, -22448, -22301, -22153, -22004, -21855, -21705, -21554, -21402, -21249, -21096, -20942,
    -20787, -20631, -20474, -20317, -20159, -20000, -19840, -19680, -19519, -19357, -19194, -19031,
    -18867, -18702, -18537, -18371, -18204, -18036, -17868, -17699, -17530, -17360, -17189, -17017,
    -16845, -16672, -16499, -16325, -16150, -15975, -15799, -15623, -15446, -15268, -15090, -14911,
    -14732, -14552, -14372, -14191, -14009, -13827, -13645, -13462, -13278, -13094, -12909, -12724,
    -12539, -12353, -12166, -11980, -11792, -11604, -11416, -11227, -11038, -10849, -10659, -10469,
    -10278, -10087, -9895, -9703, -9511, -9319, -9126, -8932, -8739, -8545, -8351, -8156, -7961,
    -7766, -7571, -7375, -7179, -6982, -6786, -6589, -6392, -6195, -5997, -5799, -5601, -5403,
    -5205, -5006, -4807, -4608, -4409, -4210, -4011, -3811, -3611, -3411, -3211, -3011, -2811,
    -2610, -2410, -2209, -2009, -1808, -1607, -1406, -1206, -1005, -804, -603, -402, -201]

/-- `kSinTable1024` -/
def kSinTable1024 : List Int :=
  sinRising ++ sinFalling ++ sinBelow ++ sinReturning

/-- `CFFTSFT` and `CIFFTSFT` -/
def cfftsft : Nat :=
  14

/-- `CFFTRND` and `CIFFTRND` -/
def cfftrnd : Int :=
  1

/-- `CFFTRND2` -/
def cfftrnd2 : Int :=
  16384

/-- An entry of `kSinTable1024`. -/
def sine (j : Nat) : Int :=
  kSinTable1024.getD j 0

/-- The cosines and sines that are taken from the table together. -/
def twiddles : List (Int × Int) :=
  (kSinTable1024.drop 256).zip kSinTable1024

theorem length_kSinTable1024 : kSinTable1024.length = 1024 := by
  decide +kernel

theorem twiddles_getElem? {j : Nat} (below : j < 768) :
    twiddles[j]? = some (sine (j + 256), sine j) := by
  have size := length_kSinTable1024
  unfold twiddles sine
  rw [List.getD_eq_getElem?_getD, List.getD_eq_getElem?_getD,
    List.getElem?_eq_getElem (l := kSinTable1024) (by omega),
    List.getElem?_eq_getElem (l := kSinTable1024) (by omega), List.getElem?_zip_eq_some]
  refine ⟨?_, List.getElem?_eq_getElem (by omega)⟩
  rw [List.getElem?_drop, Nat.add_comm 256, List.getElem?_eq_getElem (by omega)]
  rfl

/-- `tr32` and `ti32` -/
def turned (mode wr wi : Int) (second : Complex16) : Complex16 :=
  if mode = 0 then
    { re := (wr * second.re - wi * second.im) >>> (15 : Nat)
      im := (wr * second.im + wi * second.re) >>> (15 : Nat) }
  else
    { re := (wr * second.re - wi * second.im + cfftrnd) >>> (15 - cfftsft : Nat)
      im := (wr * second.im + wi * second.re + cfftrnd) >>> (15 - cfftsft : Nat) }

/-- A result of a butterfly, before it is narrowed. -/
def scaledSum (mode : Int) (shift : Nat) (round2 q32 t32 : Int) : Int :=
  if mode = 0 then
    (q32 + t32) >>> shift
  else
    (q32 * 2 ^ cfftsft + t32 + round2) >>> (shift + cfftsft : Nat)

/-- The body of the innermost loops. -/
def butterfly
    (mode : Int)
    (shift : Nat)
    (round2 wr wi : Int)
    (first second : Complex16) :
    Complex16 × Complex16 :=
  let turn := turned mode wr wi second
  ({ re := int16 (scaledSum mode shift round2 first.re turn.re)
     im := int16 (scaledSum mode shift round2 first.im turn.im) },
    { re := int16 (scaledSum mode shift round2 first.re (-turn.re))
      im := int16 (scaledSum mode shift round2 first.im (-turn.im)) })

/-- The loop of `WebRtcSpl_ComplexFFT` while `l < n`, with `k` counting down. -/
def complexFFTFrom (mode : Int) (n : Nat) :
    Nat → Nat → (Nat → Complex16) → Nat → Complex16
  | 0, _, frfi => frfi
  | k + 1, l, frfi =>
      if l < n then
        complexFFTFrom mode n k (l * 2)
          (stage l n
            (fun m => butterfly mode 1 cfftrnd2 (sine (m * 2 ^ k + 256)) (-sine (m * 2 ^ k)))
            frfi)
      else
        frfi

/-- `WebRtcSpl_ComplexFFT` -/
def complexFFT
    (frfi : Nat → Complex16)
    (stages : Nat)
    (mode : Int) :
    (Nat → Complex16) × Int :=
  if 1024 < 2 ^ stages then (frfi, -1) else (complexFFTFrom mode (2 ^ stages) 10 1 frfi, 0)

/-- `WebRtcSpl_MaxAbsValueW16` of the first places of a complex buffer. -/
def maxAbsValueW16 (frfi : Nat → Complex16) (n : Nat) : Int :=
  min 32767
    ((List.range n).foldl
      (fun maximum i => max (max maximum |(frfi i).re|) |(frfi i).im|)
      0)

/-- The scaling of a stage, as it depends upon the data. -/
def variableShift (tmp32 : Int) : Nat :=
  (if 13573 < tmp32 then 1 else 0) + (if 27146 < tmp32 then 1 else 0)

/-- The rounding of a stage. -/
def round2For (shift : Nat) : Int :=
  8192 * 2 ^ shift

/-- The loop of `WebRtcSpl_ComplexIFFT` while `l < n`, with `k` counting down. -/
def complexIFFTFrom (mode : Int) (n : Nat) :
    Nat → Nat → Int → (Nat → Complex16) → (Nat → Complex16) × Int
  | 0, _, scale, frfi => (frfi, scale)
  | k + 1, l, scale, frfi =>
      if l < n then
        let shift := variableShift (maxAbsValueW16 frfi n)
        complexIFFTFrom mode n k (l * 2) (scale + shift)
          (stage l n
            (fun m =>
              butterfly mode shift (round2For shift) (sine (m * 2 ^ k + 256)) (sine (m * 2 ^ k)))
            frfi)
      else
        (frfi, scale)

/-- `WebRtcSpl_ComplexIFFT` -/
def complexIFFT
    (frfi : Nat → Complex16)
    (stages : Nat)
    (mode : Int) :
    (Nat → Complex16) × Int :=
  if 1024 < 2 ^ stages then (frfi, -1) else complexIFFTFrom mode (2 ^ stages) 10 1 0 frfi

/-! ## `real_fft.c` -/

/-- The complex buffer of a real signal; the places beyond it are not looked at. -/
def withZeros (n : Nat) (realDataIn : Nat → Int) : Nat → Complex16 :=
  fun i => if i < n then { re := realDataIn i, im := 0 } else { re := 0, im := 0 }

/-- `WebRtcSpl_RealForwardFFT`; of the results the first half and one more are kept. -/
def realForwardFFT (order : Nat) (realDataIn : Nat → Int) : (Nat → Complex16) × Int :=
  complexFFT (complexBitReverse (withZeros (2 ^ order) realDataIn) order) order 1

/-- The complex buffer of a conjugate-symmetric spectrum. -/
def withConjugates (n : Nat) (complexDataIn : Nat → Complex16) : Nat → Complex16 :=
  fun i =>
    if i ≤ n / 2 then complexDataIn i
    else if i < n then
      { re := (complexDataIn (n - i)).re, im := int16 (-(complexDataIn (n - i)).im) }
    else
      { re := 0, im := 0 }

/-- `WebRtcSpl_RealInverseFFT` -/
def realInverseFFT (order : Nat) (complexDataIn : Nat → Complex16) : (Nat → Int) × Int :=
  let transformed :=
    complexIFFT (complexBitReverse (withConjugates (2 ^ order) complexDataIn) order) order 1
  (fun i => (transformed.1 i).re, transformed.2)

/-! ## The reversed order -/

section Reordering

variable {Cell : Type*} {width m : Nat}

/-- The loop for `l` finds the bit that the carry stops at. -/
theorem halvedWhileAbove_spec
    (inside : m + 1 < 2 ^ width) :
    ∃ bit < width,
      halvedWhileAbove (2 ^ width - 1 - reversed width m) (2 ^ width) = 2 ^ bit ∧
        reversed width m % 2 ^ bit + 2 ^ bit = reversed width (m + 1) := by
  induction width generalizing m with
  | zero => omega
  | succ width inductionHypothesis =>
      have below := reversed_lt width (m / 2)
      rw [Nat.pow_succ] at inside
      have half : 2 ^ (width + 1) / 2 = 2 ^ width := by
        rw [Nat.pow_succ, Nat.mul_div_cancel _ Nat.two_pos]
      unfold halvedWhileAbove
      rw [half, Nat.pow_succ]
      rcases Nat.mod_two_eq_zero_or_one m with even | odd
      · obtain ⟨next, here⟩ := reversed_succ_of_even even
        rw [here, if_neg (by omega)]
        refine ⟨width, Nat.lt_succ_self _, rfl, ?_⟩
        rw [Nat.mod_eq_of_lt below, next]
      · obtain ⟨next, here⟩ := reversed_succ_of_odd odd
        rw [here, if_pos (by omega),
          show 2 ^ width * 2 - 1 - (reversed width (m / 2) + 2 ^ width) =
            2 ^ width - 1 - reversed width (m / 2) by omega]
        obtain ⟨bit, inWidth, found, carried⟩ := inductionHypothesis (m := m / 2) (by omega)
        refine ⟨bit, by omega, found, ?_⟩
        obtain ⟨rest, rfl⟩ := Nat.exists_eq_add_of_lt inWidth
        rw [next, ← carried, show bit + rest + 1 = bit + (rest + 1) by omega, Nat.pow_add,
          Nat.add_mul_mod_self_left]

theorem reorderFrom_eq
    {left : Nat}
    (complexData : Nat → Cell)
    (whole : m + 1 + left = 2 ^ width) :
    reorderFrom (2 ^ width) left (m + 1) (reversed width m) complexData =
      (List.range' (m + 1) left).foldl (mirrorStep width) complexData := by
  induction left generalizing m complexData with
  | zero => rfl
  | succ left inductionHypothesis =>
      obtain ⟨bit, -, found, carried⟩ :=
        halvedWhileAbove_spec (show m + 1 < 2 ^ width by omega)
      unfold reorderFrom
      dsimp only
      rw [found, Nat.and_two_pow_sub_one_eq_mod, carried, inductionHypothesis _ (by omega),
        List.range'_succ, List.foldl_cons]
      unfold mirrorStep
      congr 1
      split
      next notLater =>
          rw [if_neg (by omega)]
      next later =>
          rw [if_pos (by omega)]

/-- The two places that one turn of the loop exchanges. -/
def mirrorPair (width index : Nat) : List Nat :=
  if index < reversed width index then [index, reversed width index] else []

theorem swapPairs_flatMap
    (indexes : List Nat)
    (complexData : Nat → Cell) :
    swapPairs (indexes.flatMap (mirrorPair width)) complexData =
      indexes.foldl (mirrorStep width) complexData := by
  induction indexes generalizing complexData with
  | nil => rfl
  | cons index indexes inductionHypothesis =>
      rw [List.flatMap_cons, List.foldl_cons, ← inductionHypothesis]
      unfold mirrorPair mirrorStep
      split
      next later =>
          rw [List.cons_append, List.cons_append, List.nil_append, swapPairs]
      next notLater =>
          rfl

/-- The tables list the pairs that the loop finds. -/
theorem index7_eq : index7 = (List.range (2 ^ 7)).flatMap (mirrorPair 7) := by
  decide +kernel

theorem index8_eq : index8 = (List.range (2 ^ 8)).flatMap (mirrorPair 8) := by
  decide +kernel

theorem complexBitReverse_eq (complexData : Nat → Cell) (stages : Nat) :
    complexBitReverse complexData stages = mirrored stages complexData := by
  rw [← foldl_mirrorStep]
  unfold complexBitReverse
  split
  next seven =>
      rw [seven, index7_eq, swapPairs_flatMap]
  next notSeven =>
      split
      next eight =>
          rw [eight, index8_eq, swapPairs_flatMap]
      next notEight =>
          have positive := Nat.two_pow_pos stages
          have loop :=
            reorderFrom_eq complexData
              (show 0 + 1 + (2 ^ stages - 1) = 2 ^ stages by omega)
          rw [reversed_zero] at loop
          have range : List.range (2 ^ stages) = 0 :: List.range' 1 (2 ^ stages - 1) := by
            rw [List.range_eq_range', ← Nat.sub_add_cancel positive, List.range'_succ,
              Nat.sub_add_cancel positive]
          rw [loop, range, List.foldl_cons, mirrorStep, reversed_zero, if_neg (lt_irrefl 0)]

/--
By the tables or by the loop, every item of the buffer comes to the place with the bits of
its own the other way round, nothing beyond the buffer moves, and a second run restores it.
-/
theorem complexBitReverse_reverses
    (complexData : Nat → Cell)
    (stages : Nat) :
    (∀ i < 2 ^ stages,
        complexBitReverse complexData stages (reversed stages i) = complexData i) ∧
      (∀ i, 2 ^ stages ≤ i → complexBitReverse complexData stages i = complexData i) ∧
        complexBitReverse (complexBitReverse complexData stages) stages = complexData := by
  rw [complexBitReverse_eq, complexBitReverse_eq]
  refine ⟨fun i below => ?_, fun i beyond => ?_, mirrored_mirrored stages complexData⟩
  · rw [mirrored, if_pos (reversed_lt stages i), reversed_reversed below]
  · rw [mirrored, if_neg (not_lt.mpr beyond)]

end Reordering

/-! ## The recursion of the transforms -/

section Networks

variable {samples frfi : Nat → Complex16}
variable {mode : Int}
variable {width rest k : Nat}

/-- The butterflies of the forward transform. -/
def forward (mode : Int) (width m : Nat) : Complex16 → Complex16 → Complex16 × Complex16 :=
  butterfly mode 1 cfftrnd2 (sine (m * 2 ^ (9 - width) + 256)) (-sine (m * 2 ^ (9 - width)))

/-- The butterflies of the inverse transform with the scaling of each stage. -/
def inverse
    (mode : Int)
    (shifts : Nat → Nat)
    (width m : Nat) :
    Complex16 → Complex16 → Complex16 × Complex16 :=
  butterfly mode (shifts width) (round2For (shifts width)) (sine (m * 2 ^ (9 - width) + 256))
    (sine (m * 2 ^ (9 - width)))

/-- The place in the table that a stage takes for a place in its blocks. -/
theorem sinePlace_lt
    {m : Nat}
    (stageInside : width < 10)
    (inside : m < 2 ^ width) :
    m * 2 ^ (9 - width) < 512 := by
  calc
    m * 2 ^ (9 - width) < 2 ^ width * 2 ^ (9 - width) :=
      Nat.mul_lt_mul_of_pos_right inside (Nat.two_pow_pos _)
    _ = 2 ^ 9 := by rw [← Nat.pow_add, Nat.add_sub_cancel' (Nat.le_of_lt_succ stageInside)]

theorem complexFFTFrom_arranged
    (arranged : Arranged (forward mode) samples width rest frfi)
    (within : width + rest ≤ 10)
    (count : k + width = 10) :
    Arranged (forward mode) samples (width + rest) 0
      (complexFFTFrom mode (2 ^ (width + rest)) k (2 ^ width) frfi) := by
  induction rest generalizing width k frfi with
  | zero =>
      cases k with
      | zero => exact arranged
      | succ k =>
          rw [complexFFTFrom, Nat.add_zero, if_neg (lt_irrefl _)]
          exact arranged
  | succ rest inductionHypothesis =>
      obtain ⟨k, rfl⟩ : ∃ before, k = before + 1 := ⟨9 - width, by omega⟩
      have further : 2 ^ width < 2 ^ (width + (rest + 1)) :=
        Nat.pow_lt_pow_right Nat.one_lt_two (by omega)
      obtain rfl : k = 9 - width := by omega
      rw [complexFFTFrom, if_pos further, ← Nat.pow_succ,
        show width + (rest + 1) = width + 1 + rest by omega]
      exact inductionHypothesis arranged.stage (by omega) (by omega)

/--
The stages of the forward transform on a reordered buffer compute the recursion that
transforms the even and the odd samples and joins them by butterflies.
-/
theorem complexFFT_radix2
    {stages i : Nat}
    (samples : Nat → Complex16)
    (mode : Int)
    (most : stages ≤ 10)
    (below : i < 2 ^ stages) :
    (complexFFT (complexBitReverse samples stages) stages mode).1 i =
      radix2 (forward mode) stages samples i := by
  have fits : ¬1024 < 2 ^ stages :=
    not_lt.mpr (Nat.pow_le_pow_right Nat.two_pos most)
  have start : Arranged (forward mode) samples 0 stages (mirrored stages samples) :=
    arranged_mirrored
  have done := complexFFTFrom_arranged (k := 10) start (by omega) rfl
  rw [Nat.zero_add] at done
  rw [complexFFT, if_neg fits, complexBitReverse_eq]
  exact done.final below

end Networks


end ApmSdk.ComplexFft
