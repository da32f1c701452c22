import DotMatrix.Video.Frame

/-! Frames as plain netpbm pictures: black and white as `P1`, in the colours of the screen as `P3`. -/
namespace DotMatrix

inductive ImageFormat where
  | pbm
  | ppm
deriving DecidableEq, Repr

def ImageFormat.extension : ImageFormat → String
  | .pbm => "pbm"
  | .ppm => "ppm"

namespace Netpbm

/-- A digit and a blank for each pixel; shades other than 0 are set. -/
def pbmRow (row : List Shade) : List Char :=
  row.flatMap (fun shade => [if shade = 0 then '0' else '1', ' ']) ++ ['\n']

def pbm (rows : List (List Shade)) : List Char :=
  "P1\n160 144\n".toList ++ rows.flatMap pbmRow ++ ['\n']

def sampleText (value : UInt8) : List Char := ' ' :: Nat.toDigits 10 value.toNat

def colorText (color : Color) : List Char :=
  sampleText color.red ++ sampleText color.green ++ sampleText color.blue

def ppmRow (row : List Shade) : List Char :=
  row.flatMap (fun shade => colorText (Color.ofIndex shade.val)) ++ ['\n']

def ppm (rows : List (List Shade)) : List Char :=
  "P3 160 144 255\n".toList ++ rows.flatMap ppmRow ++ ['\n']

end Netpbm

def Frame.encode (frame : Frame) : ImageFormat → String
  | .pbm => String.ofList (Netpbm.pbm frame.rows)
  | .ppm => String.ofList (Netpbm.ppm frame.rows)

end DotMatrix
