/-
Bytes, machine integers and errors of the client.

Go strings and byte slices are both byte sequences here (`Bytes`).  `int` is a
64-bit two's complement integer: `wrap64` is the only place where a sum can
leave the range.  `GoErr` collects the error values the modelled functions can
return; `errors.As(err, &netErr) && netErr.Timeout()` is `GoErr.isNetTimeout`.
-/
import Mathlib.Data.List.Basic
import Mathlib.Data.List.DropRight
import Mathlib.Data.Int.Init
import Mathlib.Tactic.NormNum
import Mathlib.Tactic.SplitIfs

namespace BurstHttp

abbrev Bytes := List UInt8

/-- The bytes of an ASCII string constant of the source. -/
def ascii (s : String) : Bytes := s.toList.map Char.toUInt8

abbrev CR : UInt8 := 13
abbrev LF : UInt8 := 10
abbrev SP : UInt8 := 32
abbrev TAB : UInt8 := 9

/-- A value of Go type `int` after an operation whose exact result is `x`. -/
def wrap64 (x : ℤ) : ℤ := Int.bmod x (2 ^ 64)

theorem wrap64_eq {x : ℤ} (h0 : -2 ^ 63 ≤ x) (h1 : x < 2 ^ 63) : wrap64 x = x := by
  unfold wrap64
  apply Int.bmod_eq_of_le
  · norm_num
    omega
  · norm_num
    omega

/-- The same for `int32`. -/
def wrap32 (x : ℤ) : ℤ := Int.bmod x (2 ^ 32)

/-- `ErrorType`. -/
inductive ErrorType
  | network | timeout | protocol | tls | proxy | validation | internal
  deriving DecidableEq, Repr

/-- The errors the modelled code returns, stores or compares.  `netTimeout` is a
`net.Error` with `Timeout() = true`, as `context.DeadlineExceeded` is, `io` any other
error of a connection, a context or a decoder; `detailed` is `DetailedError`. -/
inductive GoErr
  | eof
  | unexpectedEOF
  | netTimeout
  | io (code : ℕ)
  | connectFailed
  | writeFailed
  | readFailed
  | connectionClosed
  | timeout
  | invalidURL
  | headerTooLarge
  | invalidResponse
  | responseTooLarge
  | requestTooLarge
  | respTransferred
  | detailed (type : ErrorType) (message : String) (err : GoErr)
  deriving DecidableEq, Repr

/-- `WrapError`. -/
def wrapError (type : ErrorType) (message : String) (err : GoErr) : GoErr :=
  .detailed type message err

/-- `errors.As(err, &netErr) && netErr.Timeout()`: `errors.As` unwraps
`DetailedError`. -/
def GoErr.isNetTimeout : GoErr → Bool
  | .netTimeout => true
  | .detailed _ _ err => err.isNetTimeout
  | _ => false

/-- How a call with result type `error` ends.  A panic is not a return. -/
inductive Ret
  | nil
  | error (err : GoErr)
  | panic
  deriving DecidableEq, Repr

end BurstHttp
