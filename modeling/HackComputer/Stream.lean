/-!
# Byte streams

What can go wrong with a file or a sink, what a path can lead to, and a buffer
of limited size to write into.
-/

namespace HackComputer

/-- Why a stream cannot be read or written. -/
inductive StreamError where
  /-- A line of text is not valid UTF-8. -/
  | invalidUtf8
  /-- The sink is full before all is written. -/
  | shortWrite
  | notFound
  | notDirectory
  | isDirectory
  | noSpace
  | nameTooLong
  /-- Any other failure, as the system words it. -/
  | other (text : String)
  deriving DecidableEq, Repr

namespace StreamError

/-- The cause, as the system words it. -/
def cause : StreamError → String
  | .invalidUtf8 => "stream did not contain valid UTF-8"
  | .shortWrite => "failed to write whole buffer"
  | .notFound => "No such file or directory (os error 2)"
  | .notDirectory => "Not a directory (os error 20)"
  | .isDirectory => "Is a directory (os error 21)"
  | .noSpace => "No space left on device (os error 28)"
  | .nameTooLong => "File name too long (os error 36)"
  | .other text => text

/-- The text that reports a failed stream. -/
def message (error : StreamError) : String :=
  "I/O error: " ++ error.cause

end StreamError

/-- What a path leads to. -/
inductive Place where
  /-- A file that can be read and replaced. -/
  | file (contents : List UInt8)
  /-- Nothing, in a directory where a file can be made. -/
  | vacant
  /-- A device without room for a single byte. -/
  | fullDevice
  /-- Something that can neither be read nor written. -/
  | unusable (cause : StreamError)
  deriving DecidableEq, Repr

namespace Place

/-- The bytes found at a place.  Nothing can be read back from a full device. -/
def read : Place → Except StreamError (List UInt8)
  | .file contents => .ok contents
  | .vacant => .error .notFound
  | .fullDevice => .error .noSpace
  | .unusable cause => .error cause

/-- The place after `bytes` are saved there. -/
def save (bytes : List UInt8) : Place → Except StreamError Place
  | .file _ | .vacant => .ok (.file bytes)
  | .fullDevice => if bytes.isEmpty then .ok .fullDevice else .error .noSpace
  | .unusable cause => .error cause

end Place

/-- A sink of limited size: a buffer that is overwritten from its start. -/
structure Sink where
  /-- What has been written. -/
  written : String
  /-- The characters of the buffer behind it, not yet overwritten. -/
  rest : List Char
  deriving DecidableEq, Repr

namespace Sink

/-- A sink that overwrites `buffer`. -/
def ofBuffer (buffer : String) : Sink :=
  ⟨"", buffer.toList⟩

/-- The whole buffer. -/
def contents (sink : Sink) : String :=
  sink.written ++ String.ofList sink.rest

/-- Writes a text, if there is room for all of it. -/
def write (sink : Sink) (text : String) : Except StreamError Sink :=
  if (sink.rest.take text.length).length = text.length then
    .ok ⟨sink.written ++ text, sink.rest.drop text.length⟩
  else .error .shortWrite

end Sink

end HackComputer
