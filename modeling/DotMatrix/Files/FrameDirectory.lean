import DotMatrix.Files.FileSystem
import DotMatrix.Netpbm
import DotMatrix.Video.Scheduler

/-! A frame sink that writes each frame to a numbered file of a directory. A frame that cannot be
written leaves its number to the next one. -/
namespace DotMatrix

structure FrameDirectory where
  files : FileSystem
  directory : Path
  format : ImageFormat
  written : Nat := 0

namespace FrameDirectory

/-- Makes the directory first if it is missing. A refusal comes with the files as they then are. -/
def create (files : FileSystem) (directory : Path) (format : ImageFormat) :
    Except (FileFault × FileSystem) FrameDirectory :=
  match files.makeDirectories directory with
  | (.ok (), files) => .ok { files, directory, format }
  | (.error fault, files) => .error (fault, files)

def fileName (format : ImageFormat) (index : Nat) : String :=
  "frame-" ++ String.ofList (decimalNumeral 5 index) ++ "." ++ format.extension

def pathOf (sink : FrameDirectory) (index : Nat) : Path :=
  sink.directory.child (fileName sink.format index)

instance : FrameSink FrameDirectory where
  present frame sink :=
    match sink.files.write (sink.pathOf sink.written) (frame.encode sink.format).toUTF8 with
    | .ok files => (.ok (), { sink with files, written := sink.written + 1 })
    | .error fault => (.error fault.message, sink)

end FrameDirectory

end DotMatrix
