import Wali.AliasResolution
import Wali.InsertionDict
import Wali.PythonText

/-!
The type templates of `autogen.py` and the dictionaries it builds from them. A
name `a-b` of the primitive template is keyed by its C spelling `a b`, a name
`a-b` of the complex template by `a_b`.
-/

namespace Wali.TypeTemplates

open Wali.AliasResolution
open Wali.InsertionDict
open Wali.PythonText

/-- What `parse_type_file` returns for `primitives.wit.template` and for
`complex.wit.template`. -/
structure Templates where
  primitives : Dict Text Text
  complex : Dict Text Text

def sub (k : Text) (ch : Char) : Text := replaceChar '-' ch k

variable (T : Templates)

def basicTypes : Dict Text Text :=
  Dict.ofList (T.primitives.entries.map fun entry => (sub entry.1 ' ', entry.2))

def complexValue (v : Text) : Text :=
  if sub v ' ' ∈ basicTypes T then sub v ' ' else sub v '_'

def complexTypes : Dict Text Text :=
  Dict.ofList (T.complex.entries.map fun entry =>
    (sub entry.1 '_', complexValue T entry.2))

def combinedTypes : Dict Text Text := (basicTypes T).union (complexTypes T)

def witPrimitiveSet : List Text := (basicTypes T).values

/-- `"UNDEF"`, the fallback of every failed lookup. -/
def undef : Text := "UNDEF"

def witIntegers : List Text :=
  ["s8", "s16", "s32", "s64", "u8", "u16", "u32", "u64"]

def witPrimitives : List Text :=
  witIntegers ++ (["bool", "f32", "f64", "char", "string"] : List Text)

def IsWitInteger (v : Text) : Prop := v ∈ witIntegers

instance (v : Text) : Decidable (IsWitInteger v) :=
  inferInstanceAs (Decidable (v ∈ witIntegers))

def IsWide (v : Text) : Prop := v = "s64" ∨ v = "u64"

instance (v : Text) : Decidable (IsWide v) :=
  inferInstanceAs (Decidable (v = _ ∨ v = _))

/-- The C type name `t` resolves through the aliases of both templates to the WIT
integer type `p`. -/
def TypeResolves (t p : Text) : Prop :=
  Resolves IsWitInteger (combinedTypes T).get? t p

theorem get?_combinedTypes (t : Text) :
    (combinedTypes T).get? t = ((complexTypes T).get? t).or ((basicTypes T).get? t) :=
  Dict.get?_union _ _

theorem mem_witPrimitiveSet_of_get? {b v : Text} (h : (basicTypes T).get? b = some v) :
    v ∈ witPrimitiveSet T :=
  Dict.mem_values_of_get? h

def shippedTemplates : Templates where
  primitives := Dict.ofList
    [("int", "s32"), ("long", "s64"), ("long-long", "s64"), ("short", "s16"),
      ("reg", "s64"), ("unsigned", "u32"), ("unsigned-int", "u32"),
      ("unsigned-long", "u64"), ("unsigned-long-long", "u64"),
      ("unsigned-short", "u16"), ("unsigned-reg", "u64"),
      ("syscall-result", "s64"), ("ptr", "s32"), ("ptr-func", "u32")]
  complex := Dict.ofList
    [("off-t", "long-long"), ("size-t", "unsigned-int"), ("nfds-t", "unsigned-int"),
      ("socklen-t", "unsigned-int"), ("clockid-t", "int"), ("mode-t", "int"),
      ("uid-t", "int"), ("pid-t", "int"), ("gid-t", "int"),
      ("rlim-t", "unsigned-long-long"), ("time-t", "s64"), ("suseconds-t", "s64"),
      ("sigset-t", "Array[128, u8]"), ("sa-family-t", "unsigned-short"),
      ("ino-t", "u64"), ("dev-t", "u64"), ("nlink-t", "unsigned-reg"),
      ("blksize-t", "long"), ("blkcnt-t", "s64"), ("fsblkcnt-t", "u64"),
      ("fsfilcnt-t", "u64"), ("fsid-t", "Array[2, s32]"),
      ("uts-str", "Array[65, u8]"), ("epoll-data-t", "s64")]

example : (complexTypes shippedTemplates).get? "off_t" = some ("long long" : Text) := by
  decide

end Wali.TypeTemplates
