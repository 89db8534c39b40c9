import SimpleRouter.Lib.Memory
/-!
# Reading text in C

What `fgets`, `sscanf` with `%s` and `inet_aton` make of bytes, as the C
library documents them. A string is the list of its bytes without the NUL.
-/
open Memory

namespace CText

/-! ## Lines -/

def newline : UInt8 := 10

/-- The lines of a file, each with its newline; the last one may have none. `acc`
is the part of a line read so far. -/
def linesFrom (acc : List UInt8) : List UInt8 → List (List UInt8)
  | [] => if acc = [] then [] else [acc]
  | c :: cs => if c = newline then (acc ++ [c]) :: linesFrom [] cs else linesFrom (acc ++ [c]) cs

def lines (file : List UInt8) : List (List UInt8) := linesFrom [] file

/-- What successive calls of `fgets(.., size, fp)` read: they stop behind a
newline, or when `size - 1` bytes have been read. -/
def fgetsFrom (size : Nat) (acc : List UInt8) : List UInt8 → List (List UInt8)
  | [] => if acc = [] then [] else [acc]
  | c :: cs =>
    if c = newline ∨ acc.length + 2 = size then (acc ++ [c]) :: fgetsFrom size [] cs
    else fgetsFrom size (acc ++ [c]) cs

def fgetsAll (size : Nat) (file : List UInt8) : List (List UInt8) := fgetsFrom size [] file

/-- Bytes begun with end up in a line that is longer than they are, if more follow. -/
theorem linesFrom_long (acc : List UInt8) (c : UInt8) (cs : List UInt8) :
    ∃ l ∈ linesFrom acc (c :: cs), acc.length + 1 ≤ l.length := by
  induction cs generalizing acc c with
  | nil => exact ⟨acc ++ [c], by simp [linesFrom], by simp⟩
  | cons d cs ih =>
    by_cases hc : c = newline
    · exact ⟨acc ++ [c], by rw [linesFrom, if_pos hc]; exact List.mem_cons_self, by simp⟩
    · obtain ⟨l, hl, hlen⟩ := ih (acc ++ [c]) d
      rw [List.length_append, List.length_singleton] at hlen
      exact ⟨l, by rw [linesFrom, if_neg hc]; exact hl, by omega⟩

theorem fgetsFrom_eq {size : Nat} {acc file : List UInt8} (h : ∀ l ∈ linesFrom acc file, l.length < size) :
    fgetsFrom size acc file = linesFrom acc file := by
  induction file generalizing acc with
  | nil => rfl
  | cons c cs ih =>
    by_cases hc : c = newline
    · rw [linesFrom, if_pos hc] at h ⊢
      rw [fgetsFrom, if_pos (.inl hc), ih fun l hl => h l (List.mem_cons_of_mem _ hl)]
    · rw [linesFrom, if_neg hc] at h ⊢
      by_cases hfull : acc.length + 2 = size
      · rw [fgetsFrom, if_pos (.inr hfull)]
        -- a full buffer inside a line that is short enough is the end of the file
        cases cs with
        | nil => simp [linesFrom, fgetsFrom]
        | cons d cs =>
          obtain ⟨l, hl, hlen⟩ := linesFrom_long (acc ++ [c]) d cs
          have := h l hl
          rw [List.length_append, List.length_singleton] at hlen
          omega
      · rw [fgetsFrom, if_neg (not_or.2 ⟨hc, hfull⟩), ih h]

/-- Lines that fit in the buffer are read one by one. -/
theorem fgetsAll_eq {size : Nat} {file : List UInt8} (h : ∀ l ∈ lines file, l.length < size) :
    fgetsAll size file = lines file := fgetsFrom_eq h

/-! ## Fields -/

/-- `isspace` in the C locale. -/
def isspace (c : UInt8) : Bool := c = 32 ∨ 9 ≤ c ∧ c ≤ 13

/-- The conversion `%s`: skips white space, then reads up to the next. -/
def scanStr (s : List UInt8) : Option (List UInt8 × List UInt8) :=
  let s := s.dropWhile isspace
  if s = [] then none else some (s.takeWhile fun c => !isspace c, s.dropWhile fun c => !isspace c)

/-- What `n` conversions `%s` read of `s`, which ends at a NUL. The first one
that finds nothing ends the call. -/
def scanFields : Nat → List UInt8 → List (List UInt8)
  | 0, _ => []
  | n + 1, s => match scanStr s with
    | none => []
    | some (field, rest) => field :: scanFields n rest

/-- `sscanf(line, "%s .. %s", ..)` with `n` conversions. -/
def sscanf (n : Nat) (line : List UInt8) : List (List UInt8) := scanFields n (line.takeWhile (· ≠ 0))

/-! ## Addresses -/

def isdigit (c : UInt8) : Bool := 48 ≤ c ∧ c ≤ 57

/-- The value of a digit, in bases up to 16. -/
def digit (c : UInt8) : Option Nat :=
  if isdigit c then some (c.toNat - 48)
  else if 97 ≤ c ∧ c ≤ 102 then some (c.toNat - 87)
  else if 65 ≤ c ∧ c ≤ 70 then some (c.toNat - 55)
  else none

/-- Digits in `base`, from the value `v` on, and what follows them. -/
def number (base v : Nat) : List UInt8 → Nat × List UInt8
  | [] => (v, [])
  | c :: cs => match digit c with
    | some d => if d < base then number base (v * base + d) cs else (v, c :: cs)
    | none => (v, c :: cs)

/-- `strtoul(s, .., 0)` for a string that starts with a digit: `0x` means
hexadecimal if a digit follows, and a leading `0` octal. -/
def strtoul (s : List UInt8) : Nat × List UInt8 :=
  match s with
  | 48 :: x :: c :: cs =>
    if (x = 120 ∨ x = 88) ∧ (digit c).isSome then number 16 0 (c :: cs) else number 8 0 (x :: c :: cs)
  | 48 :: cs => number 8 0 cs
  | cs => number 10 0 cs

/-- The parts of an address from the one that `left` dots may still follow; `hi`
is what the parts before it come to, in host order. -/
def atonParts : Nat → Nat → List UInt8 → Option UInt32
  | left, hi, s =>
    if (s.head?.map isdigit).getD false then
      let (v, rest) := strtoul s
      match left, rest with
      | left + 1, 46 :: rest => if v ≤ 255 then atonParts left (hi + v * 256 ^ (left + 1)) rest else none
      | _, rest =>
        -- the last part fills the bytes that are left
        if (rest.head?.map isspace).getD true ∧ v < 256 ^ (left + 1) then some (swap32 (.ofNat (hi + v))) else none
    else none

/-- `inet_aton`: the address in network byte order. -/
def inetAton (s : List UInt8) : Option UInt32 := atonParts 3 0 s

example : inetAton [49, 48, 46, 48, 46, 49, 46, 49, 48, 48] = some 0x6401000A := by decide

end CText
