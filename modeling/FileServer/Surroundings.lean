/-! What comes from the surroundings: failures of files, sockets and name lookups, and values together
with what was asked to reach them, in order. -/
namespace FileServer

inductive FailureKind
  | notFound
  | permissionDenied
  | notADirectory
  | isADirectory
  | linkLoop
  | nameTooLong
  | invalidInput
  | invalidData
  | wouldBlock
  | interrupted
  | connectionAborted
  | connectionReset
  | brokenPipe
  | networkUnreachable
  | addressNotAvailable
  | uncategorized
  | other
  deriving DecidableEq, Repr

structure Failure where
  kind : FailureKind
  text : String
  deriving DecidableEq, Repr

namespace Failure

def system (kind : FailureKind) (text : String) (code : Nat) : Failure :=
  ⟨kind, s!"{text} (os error {code})"⟩

def notFound : Failure := .system .notFound "No such file or directory" 2

def notADirectory : Failure := .system .notADirectory "Not a directory" 20

def isADirectory : Failure := .system .isADirectory "Is a directory" 21

def notReady : Failure := .system .wouldBlock "Resource temporarily unavailable" 11

def cannotAccept : Failure := .system .invalidInput "Invalid argument" 22

def brokenPipe : Failure := .system .brokenPipe "Broken pipe" 32

def nameTooLong : Failure := .system .nameTooLong "File name too long" 36

def linkLoop : Failure := .system .linkLoop "Too many levels of symbolic links" 40

def addressNotAvailable : Failure :=
  .system .addressNotAvailable "Cannot assign requested address" 99

def connectionReset : Failure := .system .connectionReset "Connection reset by peer" 104

def embeddedNul : Failure := ⟨.invalidInput, "file name contained an unexpected NUL byte"⟩

def lookup (text : String) : Failure :=
  ⟨.uncategorized, "failed to lookup address information: " ++ text⟩

def unknownName : Failure := .lookup "Name or service not known"

def unresolvedName : Failure := .lookup "Temporary failure in name resolution"

def notText : Failure := ⟨.invalidData, "stream did not contain valid UTF-8"⟩

end Failure

structure Traced (ε α : Type) where
  trace : List ε
  value : α
  deriving DecidableEq, Repr

namespace Traced

variable {ε δ α β : Type}

def pure (a : α) : Traced ε α := ⟨[], a⟩

def bind (x : Traced ε α) (f : α → Traced ε β) : Traced ε β :=
  ⟨x.trace ++ (f x.value).trace, (f x.value).value⟩

def map (f : α → β) (x : Traced ε α) : Traced ε β := ⟨x.trace, f x.value⟩

def relabel (f : ε → δ) (x : Traced ε α) : Traced δ α := ⟨x.trace.map f, x.value⟩

end Traced

end FileServer
