import Mathlib.Data.List.Basic

/-!
# Return codes

Every entry point returns 0 (or a byte count) on success and `-errno`
otherwise. An `Errno` is the positive code, on Linux one of 1 to 133; the named
ones are those the code compares against.
-/

namespace AdaptIpc

set_option autoImplicit false

structure Errno where
  code : Nat
  positive : 0 < code
  known : code ≤ 133
  deriving DecidableEq

namespace Errno

def eperm : Errno := ⟨1, by decide, by decide⟩
def eintr : Errno := ⟨4, by decide, by decide⟩
def eio : Errno := ⟨5, by decide, by decide⟩
def eagain : Errno := ⟨11, by decide, by decide⟩
def enomem : Errno := ⟨12, by decide, by decide⟩
def einval : Errno := ⟨22, by decide, by decide⟩
def emsgsize : Errno := ⟨90, by decide, by decide⟩
def econnreset : Errno := ⟨104, by decide, by decide⟩
def etimedout : Errno := ⟨110, by decide, by decide⟩
def econnrefused : Errno := ⟨111, by decide, by decide⟩

end Errno

abbrev Status := Except Errno Unit

instance : DecidableEq Status := inferInstanceAs (DecidableEq (Except Errno Unit))

end AdaptIpc
