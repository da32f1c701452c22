import DotMatrix.Cpu.Step

/-! Everything that stops the machine, by cause, and the wording of it. -/
namespace DotMatrix

/-- Why a file operation was refused. -/
inductive FileFault where
  | notFound
  | alreadyExists
  | notADirectory
  | isADirectory
  | nameTooLong
  | zeroByte
  /-- Any other reason, as the system words it. -/
  | other (text : String)
deriving DecidableEq, Repr

def FileFault.message : FileFault → String
  | .notFound => "No such file or directory (os error 2)"
  | .alreadyExists => "File exists (os error 17)"
  | .notADirectory => "Not a directory (os error 20)"
  | .isADirectory => "Is a directory (os error 21)"
  | .nameTooLong => "File name too long (os error 36)"
  | .zeroByte => "file name contained an unexpected NUL byte"
  | .other text => text

/-- The images that are loaded before a run. -/
inductive Image where
  | bootRom
  | cartridge
deriving DecidableEq, Repr

def Image.name : Image → String
  | .bootRom => "boot ROM"
  | .cartridge => "cartridge"

inductive LoadFault where
  | file (fault : FileFault)
  | oversized (size limit : Nat)
deriving DecidableEq, Repr

def LoadFault.message : LoadFault → String
  | .file fault => fault.message
  | .oversized size limit => s!"image is {size} bytes but at most {limit} fit"

inductive Fault where
  | decode (fault : DecodeFault)
  | load (image : Image) (cause : LoadFault)
  /-- The frame sink refused a frame and said why. -/
  | sink (reason : String)
deriving DecidableEq, Repr

def Fault.message : Fault → String
  | .decode fault => fault.message
  | .load image _ => "failed to load " ++ image.name
  | .sink _ => "frame sink failed"

/-- The wording of what lies behind a fault, where something does. -/
def Fault.cause? : Fault → Option String
  | .decode _ => none
  | .load _ cause => some cause.message
  | .sink reason => some reason

end DotMatrix
