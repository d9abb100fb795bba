import HttpsServ.Library.ByteString

/-!
# utility.c

String helpers, the path sanitizer, the file opener and the two integer
helpers behind chunked encoding. A `char *` is the list of its bytes before
the terminating zero, so `strlen` is the length of the list. C strings and
objects are smaller than `2 ^ 31` bytes; the casts between `int`, `size_t` and
pointer differences that this makes harmless are not written. The sanitizer is
written with its cast, for strings of any length, in `PathStores`.
-/

namespace HttpsServ.Utility

open ByteString

def networkError : Int := -1

def otherError : Int := networkError

/-- Conversion of a wider integer to `int`. -/
def toInt32 (n : Int) : Int := n.bmod 4294967296

def intMax : Nat := 2147483647

structure ErrorDescription where
  errorCode : Bytes
  errorStatus : Bytes

/-- `enum HttpErrorCode`. -/
def kNotFound : Int := -1
def kBadRequest : Int := -2
def kNotImplemented : Int := -3

def kErrorDescriptions : List ErrorDescription :=
  [⟨bytes "200", bytes "OK"⟩,
   ⟨bytes "404", bytes "NOT FOUND"⟩,
   ⟨bytes "400", bytes "BAD REQUEST"⟩,
   ⟨bytes "501", bytes "NOT IMPLEMENTED"⟩]

/-- The string `GetFilePosition` works on, with every store into it so far. -/
structure Scan where
  src : Bytes
  stores : List (Nat × UInt8)

def susWord : Bytes := bytes "../"

/-- `memset(&src[it - src], ' ', strlen(sus_word))`. -/
def Scan.blank (s : Scan) (it : Nat) : Scan where
  src := overwrite s.src it [32, 32, 32]
  stores := s.stores ++ [(it, 32), (it + 1, 32), (it + 2, 32)]

theorem Scan.blank_src {s : Scan} {it : Nat}
    (h : firstOccurrence susWord s.src = some it) :
    (s.blank it).src = s.src.take it ++ [32, 32, 32] ++ s.src.drop (it + 3) := by
  have hle : it + susWord.length ≤ s.src.length := firstOccurrence_le h (by decide)
  exact overwrite_of_le hle

/-- Every blanking removes a slash, which is why the first loop ends. -/
theorem Scan.blank_count_lt {s : Scan} {it : Nat}
    (h : firstOccurrence susWord s.src = some it) :
    (s.blank it).src.count 47 < s.src.count 47 := by
  have hsplit := congrArg (List.count 47) (firstOccurrence_split h)
  have hslash : susWord.count 47 = 1 := by decide
  have hlen : susWord.length = 3 := by decide
  have hblank : List.count (47 : UInt8) [32, 32, 32] = 0 := by decide
  rw [List.count_append, List.count_append, hslash, hlen] at hsplit
  rw [s.blank_src h, List.count_append, List.count_append, hblank]
  omega

/-- The first loop: blank the first `"../"` and search again from the start. -/
def blankLoop (s : Scan) : Scan :=
  match _h : firstOccurrence susWord s.src with
  | none => s
  | some it => blankLoop (s.blank it)
termination_by s.src.count 47
decreasing_by exact Scan.blank_count_lt _h

/-- The second loop: copy the symbols that are no blanks down to `it`. -/
def squeezeLoop (i it : Nat) (s : Scan) : Nat × Scan :=
  if h : i < s.src.length then
    if s.src[i] ≠ 32 then
      if i ≠ it then
        squeezeLoop (i + 1) (it + 1)
          { src := s.src.set it s.src[i], stores := s.stores ++ [(it, s.src[i])] }
      else squeezeLoop (i + 1) (it + 1) s
    else squeezeLoop (i + 1) it s
  else (it, s)
termination_by s.src.length - i
decreasing_by
  all_goals try simp only [List.length_set]
  all_goals omega

structure FilePosition where
  src : Bytes
  position : Nat
  stores : List (Nat × UInt8)

/-- `GetFilePosition`: the string it leaves, its result, and its stores. -/
def getFilePosition (src : Bytes) : FilePosition :=
  let (it, s) := squeezeLoop 0 0 (blankLoop { src := src, stores := [] })
  if it < s.src.length then
    -- `*it` is still a symbol of the old string, so it is cut off here
    { src := s.src.take it, position := it, stores := s.stores ++ [(it, 0)] }
  else { src := s.src, position := it, stores := s.stores }

/-- What `fopen` and `ftell` report about a file: its bytes and its size. -/
structure FileImage where
  content : Bytes
  size : Int

/-- An open file: the bytes `fread` has not returned yet. -/
structure OpenFile where
  unread : Bytes
  deriving DecidableEq

/-- The name `OpenStaticFile` builds from the sanitized path and hands to
`fopen`; nothing when the sanitizer leaves nothing. -/
def staticFileName (fileName staticFileDir : Bytes) : Option Bytes :=
  let scanned := getFilePosition fileName
  if scanned.position = 0 then none
  else
    let start := scanned.position >>> 16
    let length := (intMax >>> 16) &&& scanned.position
    some (staticFileDir ++ (scanned.src.drop start).take (length + 1))

/-- `OpenStaticFile`: the size or an error code, and `*static_file` afterwards. -/
def openStaticFile (fopen : Bytes → Option FileImage) (fileName staticFileDir : Bytes)
    (staticFile : Option OpenFile) : Int × Option OpenFile :=
  match staticFileName fileName staticFileDir with
  | none => (kBadRequest, staticFile)
  | some name =>
      match fopen name with
      | none => (kNotFound, none)
      | some image => (image.size, some { unread := image.content })

def getKeywordIndex (srcBuffer keyword : Bytes) : Int :=
  match firstOccurrence keyword srcBuffer with
  | none => otherError
  | some headerEnd => headerEnd + keyword.length

/-- `tolower` in the C locale. -/
def tolower (b : UInt8) : UInt8 := if 65 ≤ b ∧ b ≤ 90 then b + 32 else b

def compareAnyCaseSym : Bytes → Bytes → Bool
  | x :: xs, y :: ys => if tolower x ≠ tolower y then false else compareAnyCaseSym xs ys
  | _, [] => true
  | [], _ :: _ => false

/-- `stristr`: the rest of `str1` from the place where `str2` was found. -/
def stristr (str1 str2 : Bytes) : Option Bytes :=
  match str1 with
  | [] => none
  | x :: xs =>
      if tolower x = tolower (str2.headD 0) ∧ compareAnyCaseSym (x :: xs) str2 then
        some (x :: xs)
      else stristr xs str2

def nextHighestPowerOfTwo (v : BitVec 32) : BitVec 32 :=
  let v := v - 1
  let v := v ||| v.sshiftRight 1
  let v := v ||| v.sshiftRight 2
  let v := v ||| v.sshiftRight 4
  let v := v ||| v.sshiftRight 8
  let v := v ||| v.sshiftRight 16
  v + 1

/-- The loop of `PowerOfHex`. -/
def powerOfHexLoop (number powOfHex : Nat) : Nat :=
  if number = 0 then powOfHex else powerOfHexLoop (number >>> 4) (powOfHex + 1)
termination_by number
decreasing_by simp only [Nat.shiftRight_eq_div_pow]; omega

def powerOfHex (number : Int) : Nat := powerOfHexLoop number.natAbs 0

def saturateValue (value maxValue : Int) : Int :=
  if value ≤ 0 ∨ maxValue ≤ 0 then 0
  else if value ≥ maxValue then
    (value - value.tmod maxValue).tdiv (value.tdiv maxValue)
  else value.tmod maxValue

end HttpsServ.Utility
