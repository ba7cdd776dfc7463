import KeyPool.Utf8

/-!
What a text names as a store: a file at a path, or memory. After `file:` the path is written with escapes,
and options may follow it that say how the store is to be used.
-/

namespace KeyPool

/-- What may be done with the file of a store. -/
inductive StoreAccess where
  /-- It is made if it is not there. -/
  | creating
  | writing
  | reading
  /-- There is no file. -/
  | memory
  deriving DecidableEq, Repr

namespace StoreAccess

def ofName? (name : String) : Option StoreAccess :=
  [("rwc", creating), ("rw", writing), ("ro", reading), ("memory", memory)].lookup name

/-- Whether an access that was asked for first leaves room for another: a file is not used for more, but
memory may take its place and give way to any. -/
def admits (first : StoreAccess) : StoreAccess → Bool
  | creating => first = creating || first = memory
  | writing => first ≠ reading
  | reading | memory => true

end StoreAccess

/-- How the file of a store is used. -/
inductive StoreDriver where
  /-- With locks that all users of the file share. -/
  | locking
  /-- Without them, so that changes cannot go through a log. -/
  | lockless
  /-- There is no file. -/
  | memory
  deriving DecidableEq, Repr

namespace StoreDriver

def ofName? (name : String) : Option StoreDriver :=
  [("unix", locking), ("unix-excl", locking), ("unix-none", lockless), ("unix-dotfile", lockless),
    ("memdb", memory)].lookup name

end StoreDriver

structure StoreAddress where
  /-- The path of the file; none at all and `:memory:` stand for memory. -/
  path : String
  access : StoreAccess
  driver : StoreDriver
  /-- Whether the file is taken as one that nobody changes. -/
  immutable : Bool
  deriving DecidableEq, Repr

namespace StoreAddress

/-- The octets that a text with escapes spells: two hexadecimal digits after a percent sign stand for
one. Nothing counts from an octet of zero on. -/
def unescape : List Char → Bytes
  | [] => []
  | '%' :: high :: low :: rest =>
    match Bytes.hexValue? high, Bytes.hexValue? low with
    | some h, some l =>
      if h = 0 ∧ l = 0 then [] else UInt8.ofNat (16 * h + l) :: unescape rest
    | _, _ => Bytes.ofText "%" ++ unescape (high :: low :: rest)
  | c :: rest => Bytes.ofText (String.singleton c) ++ unescape rest

def unescaped (text : List Char) : String := Utf8.decode (unescape text)

/-- Splits a text at a character, which is in neither part. -/
def cutAt (c : Char) (text : List Char) : List Char × List Char :=
  (text.takeWhile (· ≠ c), (text.dropWhile (· ≠ c)).tail)

/-- An option with its value, which follows an equals sign. -/
def readOption (text : String) : String × String :=
  let (name, value) := cutAt '=' text.toList
  (unescaped name, unescaped value)

/-- The options of a text, separated by ampersands. One without a name does not count. -/
def readOptions (text : List Char) : List (String × String) :=
  (((String.ofList text).splitOn "&").map readOption).filter (·.1 ≠ "")

def isHexDigit (c : Char) : Bool := (Bytes.hexValue? c).isSome

/-- The number at the front of a text: decimal, or hexadecimal after `0x`. One of more than thirty-one
bits counts as zero. -/
def leadingNumber (cs : List Char) : Nat :=
  let value (base : Nat) (digits : List Char) : Nat :=
    digits.foldl (fun n c => base * n + (Bytes.hexValue? c).getD 0) 0
  let n := match cs with
    | '0' :: x :: c :: rest =>
      if (x = 'x' ∨ x = 'X') ∧ isHexDigit c then value 16 ((c :: rest).takeWhile isHexDigit)
      else value 10 (cs.takeWhile Char.isDigit)
    | _ => value 10 (cs.takeWhile Char.isDigit)
  if n < 2147483648 then n else 0

/-- Whether a value switches something on: certain words in any case, or a number of whose last eight
bits one is set. -/
def isOn (value : String) : Bool :=
  if value.toList.head?.any Char.isDigit then leadingNumber value.toList % 256 ≠ 0
  else ["on", "yes", "true"].contains (value.map Char.toLower)

def isSet (options : List (String × String)) (name : String) : Bool :=
  (options.lookup name).any isOn

/-- The access that options ask for, one after another. -/
def accessOf? (options : List (String × String)) : Option StoreAccess :=
  options.foldlM (fun access (name, value) =>
    if name = "mode" then (StoreAccess.ofName? value).filter access.admits
    else if name = "cache" then
      if value = "shared" ∨ value = "private" then some access else none
    else some access) .creating

/-- The driver that options name last, if any. -/
def driverOf? (options : List (String × String)) : Option StoreDriver :=
  match options.reverse.lookup "vfs" with
  | none => some .locking
  | some name => StoreDriver.ofName? name

/-- What comes after the host, which must be this one. -/
def afterHost? : List Char → Option (List Char)
  | '/' :: '/' :: rest =>
    let host := String.ofList (rest.takeWhile (· ≠ '/'))
    if host = "" ∨ host = "localhost" then some (rest.dropWhile (· ≠ '/')) else none
  | text => some text

/-- The address after `file:`. What follows a number sign does not count. -/
def ofReference? (text : List Char) : Option StoreAddress := do
  let (path, options) := cutAt '?' ((← afterHost? text).takeWhile (· ≠ '#'))
  let options := readOptions options
  let access ← accessOf? options
  let driver ← driverOf? options
  let driver := if driver = .locking ∧ isSet options "nolock" then .lockless else driver
  return ⟨unescaped path, access, driver, isSet options "immutable"⟩

/-- The address that a text spells, unless its options make no sense. -/
def ofText? (text : String) : Option StoreAddress :=
  match text.toList with
  | 'f' :: 'i' :: 'l' :: 'e' :: ':' :: rest => ofReference? rest
  | _ => some ⟨text, .creating, .locking, false⟩

def isTransient (address : StoreAddress) : Bool :=
  address.access = .memory || address.driver = .memory || address.path = ""
    || address.path = ":memory:"

def isReadOnly (address : StoreAddress) : Bool := address.access = .reading || address.immutable

/-- Whether changes can go through a log. -/
def allowsLog (address : StoreAddress) : Bool := address.driver = .locking && !address.immutable

end StoreAddress

end KeyPool
