import Mathlib.Data.List.TakeWhile
import SimpleRouter.Lib.CText
import SimpleRouter.Tables
/-!
# Loading the routing table

`sr_load_rt` and `sr_add_rt_entry` of `sr_rt.c`. The arrays that `sscanf` writes
to live across the lines of the file and its result is not looked at, so a
short line yields fields of lines before it (`RtFields.scan`), and the old table
is given up with the first line that is accepted. `load_exact_iff` says for
which files the table is nevertheless exactly what the file says.
-/
open CText

namespace SimpleRouter

/-! ## `sr_rt.c` -/

/-- `BUFSIZ`. -/
abbrev bufsiz : Nat := 8192

/-- `strncpy(.., if_name, sr_IFACE_NAMELEN)`. -/
def IfName.ofStr (s : List UInt8) : IfName where
  chars := (s.takeWhile (· ≠ 0)).take 32
  noNul h := by simpa using List.mem_takeWhile_imp (List.mem_of_mem_take h)
  size_le := List.length_take_le _ _

/-- `sr_add_rt_entry`: the walk to the end of the list, and the new entry there. -/
def srAddRtEntry (dest gw mask : UInt32) (ifName : IfName) : List SrRt → List SrRt
  | [] => [⟨dest, gw, mask, ifName⟩]
  | rt :: rts => rt :: srAddRtEntry dest gw mask ifName rts

theorem srAddRtEntry_eq (dest gw mask : UInt32) (ifName : IfName) (rts : List SrRt) :
    srAddRtEntry dest gw mask ifName rts = rts ++ [⟨dest, gw, mask, ifName⟩] := by
  induction rts with
  | nil => rfl
  | cons rt rts ih => rw [srAddRtEntry, ih, List.cons_append]

/-- The strings in the arrays `dest`, `gw`, `mask` and `iface`, of 32 bytes each. -/
structure RtFields where
  dest : List UInt8
  gw : List UInt8
  mask : List UInt8
  iface : List UInt8
deriving DecidableEq

/-- `sscanf(line, "%s %s %s %s", ..)`: fields the line does not have keep what they were. -/
def RtFields.scan (f : RtFields) (line : List UInt8) : RtFields :=
  match sscanf 4 line with
  | [] => f
  | [dest] => { f with dest }
  | [dest, gw] => { f with dest, gw }
  | [dest, gw, mask] => { f with dest, gw, mask }
  | dest :: gw :: mask :: iface :: _ => ⟨dest, gw, mask, iface⟩

/-- What a call of `sr_load_rt` comes to. -/
inductive Loaded where
  /-- The value returned and the table there is then. -/
  | ret (v : Int) (rts : List SrRt)
  /-- A field has been written past the end of its array. -/
  | overrun
deriving DecidableEq

/-- The loop of `sr_load_rt` over the lines `fgets` reads. -/
def loadLoop (f : RtFields) (cleared : Bool) (rts : List SrRt) : List (List UInt8) → Loaded
  | [] => .ret 0 rts
  | line :: lines =>
    if ∃ field ∈ sscanf 4 line, 32 ≤ field.length then .overrun
    else match inetAton (f.scan line).dest with
      | none => .ret (-1) rts
      | some dest => match inetAton (f.scan line).gw with
        | none => .ret (-1) rts
        | some gw => match inetAton (f.scan line).mask with
          | none => .ret (-1) rts
          | some mask =>
            let rts := if cleared then rts else []
            loadLoop (f.scan line) true (srAddRtEntry dest gw mask (.ofStr (f.scan line).iface) rts) lines

/-- `sr_load_rt` on a file that can be read; `junk` is what the arrays contain
before anything is written to them. -/
def srLoadRt (junk : RtFields) (file : List UInt8) (rts : List SrRt) : Loaded :=
  loadLoop junk false rts (fgetsAll bufsiz file)

/-! ## What the file says -/

/-- The entry four fields stand for, if the addresses are accepted. -/
def RtFields.entry (f : RtFields) : Option SrRt := do
  let dest ← inetAton f.dest
  let gw ← inetAton f.gw
  let mask ← inetAton f.mask
  pure ⟨dest, gw, mask, .ofStr f.iface⟩

/-- The entry of a line by itself: it needs all four fields. -/
def lineEntry (line : List UInt8) : Option SrRt :=
  match sscanf 4 line with
  | [dest, gw, mask, iface] => (RtFields.mk dest gw mask iface).entry
  | _ => none

/-- The entries of all lines, if every line has one. -/
def fileEntries (lines : List (List UInt8)) : Option (List SrRt) := lines.mapM lineEntry

/-- What the arrays contain behind the given lines. -/
def carried (f : RtFields) (lines : List (List UInt8)) : RtFields := lines.foldl RtFields.scan f

/-- The entries that lines yield with the fields they take over from the lines before. -/
def carriedEntries (f : RtFields) : List (List UInt8) → Option (List SrRt)
  | [] => some []
  | line :: lines => do
    let rt ← (f.scan line).entry
    let rts ← carriedEntries (f.scan line) lines
    pure (rt :: rts)

/-- The lines are short enough for the arrays they are read into. -/
def FileFits (file : List UInt8) : Prop :=
  ∀ line ∈ lines file, line.length < bufsiz ∧ ∀ field ∈ sscanf 4 line, field.length < 32

instance (file : List UInt8) : Decidable (FileFits file) := inferInstanceAs (Decidable (∀ _ ∈ _, _ ∧ _))

/-! ## What a line yields -/

section Fields
variable {f : RtFields} {line : List UInt8} {lines pre post : List (List UInt8)} {rt : SrRt} {rts : List SrRt}

/-- A line with four fields takes none over. -/
theorem scan_lineEntry (h : lineEntry line = some rt) : (f.scan line).entry = some rt := by
  unfold lineEntry at h
  unfold RtFields.scan
  split at h
  · rename_i heq
    rw [heq]
    exact h
  · cases h

theorem carriedEntries_cons (h : (f.scan line).entry = some rt) :
    carriedEntries f (line :: lines) = (carriedEntries (f.scan line) lines).map (rt :: ·) := by
  rw [carriedEntries, h]
  cases carriedEntries (f.scan line) lines with
  | none => rfl
  | some rts => rfl

theorem carriedEntries_fileEntries (h : fileEntries lines = some rts) : carriedEntries f lines = some rts := by
  induction lines generalizing f rts with
  | nil => exact h
  | cons line lines ih =>
    rw [fileEntries, List.mapM_cons] at h
    obtain ⟨rt, hrt, h⟩ := Option.bind_eq_some_iff.1 h
    obtain ⟨rest, hrest, h⟩ := Option.bind_eq_some_iff.1 h
    rw [carriedEntries_cons (scan_lineEntry hrt), ih hrest]
    exact h

theorem fileEntries_isSome : (fileEntries lines).isSome ↔ ∀ line ∈ lines, (lineEntry line).isSome := by
  induction lines with
  | nil => simp [fileEntries]
  | cons line lines ih =>
    rw [List.forall_mem_cons, ← ih, fileEntries, fileEntries, List.mapM_cons]
    cases lineEntry line with
    | none => simp
    | some rt => cases lines.mapM lineEntry with
      | none => simp
      | some rts => simp

theorem carried_snoc (f : RtFields) (pre : List (List UInt8)) (line : List UInt8) :
    carried f (pre ++ [line]) = (carried f pre).scan line := by
  rw [carried, List.foldl_append]
  rfl

/-- Either every line yields an entry, or some line is the first that does not. -/
theorem carried_cases (f : RtFields) (lines : List (List UInt8)) :
    (∃ rts, carriedEntries f lines = some rts) ∨
    ∃ pre line post, lines = pre ++ line :: post ∧ (carried f (pre ++ [line])).entry = none ∧
      ∃ rts, carriedEntries f pre = some rts := by
  induction lines generalizing f with
  | nil => exact .inl ⟨[], rfl⟩
  | cons line lines ih =>
    cases he : (f.scan line).entry with
    | none => exact .inr ⟨[], line, lines, rfl, he, [], rfl⟩
    | some rt =>
      rcases ih (f.scan line) with ⟨rts, h⟩ | ⟨pre, bad, post, rfl, hbad, rts, hpre⟩
      · exact .inl ⟨rt :: rts, by rw [carriedEntries_cons he, h]; rfl⟩
      · exact .inr ⟨line :: pre, bad, post, rfl, hbad, rt :: rts, by rw [carriedEntries_cons he, hpre]; rfl⟩

/-- Where every line yields an entry, each does. -/
theorem carriedEntries_entry (h : carriedEntries f (pre ++ line :: post) = some rts) :
    (carried f (pre ++ [line])).entry ≠ none := by
  induction pre generalizing f rts with
  | nil =>
    intro hn
    rw [List.nil_append, carriedEntries] at h
    obtain ⟨rt, hrt, -⟩ := Option.bind_eq_some_iff.1 h
    cases hn.symm.trans hrt
  | cons first pre ih =>
    rw [List.cons_append, carriedEntries] at h
    obtain ⟨rt, -, h⟩ := Option.bind_eq_some_iff.1 h
    obtain ⟨rest, hrest, -⟩ := Option.bind_eq_some_iff.1 h
    exact ih hrest

end Fields

/-! ## The loop -/

section Loop
variable {f : RtFields} {line : List UInt8} {lines pre post : List (List UInt8)} {rt : SrRt} {rts entries : List SrRt}

/-- A line whose fields are not accepted ends the loop. -/
theorem loadLoop_reject (hfit : ∀ field ∈ sscanf 4 line, field.length < 32) (h : (f.scan line).entry = none)
    (cleared : Bool) : loadLoop f cleared rts (line :: lines) = .ret (-1) rts := by
  have hover : ¬ ∃ field ∈ sscanf 4 line, 32 ≤ field.length := fun ⟨field, hmem, hlen⟩ =>
    absurd (hfit field hmem) (by omega)
  rw [loadLoop, if_neg hover]
  cases hd : inetAton (f.scan line).dest with
  | none => rfl
  | some dest => cases hg : inetAton (f.scan line).gw with
    | none => rfl
    | some gw => cases hm : inetAton (f.scan line).mask with
      | none => rfl
      | some mask => simp [RtFields.entry, hd, hg, hm] at h

/-- A line whose fields are accepted adds their entry, to an empty table if it is the first. -/
theorem loadLoop_accept (hfit : ∀ field ∈ sscanf 4 line, field.length < 32) (h : (f.scan line).entry = some rt)
    (cleared : Bool) : loadLoop f cleared rts (line :: lines) =
      loadLoop (f.scan line) true ((if cleared then rts else []) ++ [rt]) lines := by
  have hover : ¬ ∃ field ∈ sscanf 4 line, 32 ≤ field.length := fun ⟨field, hmem, hlen⟩ =>
    absurd (hfit field hmem) (by omega)
  rw [loadLoop, if_neg hover]
  unfold RtFields.entry at h
  obtain ⟨dest, hd, h⟩ := Option.bind_eq_some_iff.1 h
  obtain ⟨gw, hg, h⟩ := Option.bind_eq_some_iff.1 h
  obtain ⟨mask, hm, h⟩ := Option.bind_eq_some_iff.1 h
  cases h
  simp only [hd, hg, hm, srAddRtEntry_eq]

/-- Lines that all yield entries are replaced by these, and the loop goes on behind them. -/
theorem loadLoop_append (hfit : ∀ line ∈ pre, ∀ field ∈ sscanf 4 line, field.length < 32)
    (h : carriedEntries f pre = some entries) (cleared : Bool) (rest : List (List UInt8)) :
    loadLoop f cleared rts (pre ++ rest) =
      if pre = [] then loadLoop f cleared rts rest
      else loadLoop (carried f pre) true ((if cleared then rts else []) ++ entries) rest := by
  induction pre generalizing f cleared rts entries with
  | nil => rw [if_pos rfl, List.nil_append]
  | cons line pre ih =>
    rw [carriedEntries] at h
    obtain ⟨rt, hrt, h⟩ := Option.bind_eq_some_iff.1 h
    obtain ⟨tail, htail, h⟩ := Option.bind_eq_some_iff.1 h
    cases h
    rw [if_neg (List.cons_ne_nil _ _), List.cons_append, loadLoop_accept (hfit line List.mem_cons_self) hrt,
      ih (fun l hl => hfit l (List.mem_cons_of_mem _ hl)) htail]
    by_cases hpre : pre = []
    · subst hpre
      cases htail
      rw [if_pos rfl]
      rfl
    · rw [if_neg hpre, if_pos rfl, List.append_assoc, List.singleton_append]
      rfl

/-- What a rejected line leaves: the entries before it, or the old table if there are none. -/
theorem loadLoop_rejected
    (hfit : ∀ l ∈ pre ++ line :: post, ∀ field ∈ sscanf 4 l, field.length < 32)
    (hpre : carriedEntries f pre = some entries) (hbad : (carried f (pre ++ [line])).entry = none) :
    loadLoop f false rts (pre ++ line :: post) = .ret (-1) (if pre = [] then rts else entries) := by
  have hline := hfit line (List.mem_append_right _ List.mem_cons_self)
  rw [carried_snoc] at hbad
  rw [loadLoop_append (fun l hl => hfit l (List.mem_append_left _ hl)) hpre]
  by_cases hnil : pre = []
  · subst hnil
    rw [if_pos rfl, if_pos rfl]
    exact loadLoop_reject hline hbad false
  · rw [if_neg hnil, if_neg hnil, loadLoop_reject hline hbad]
    rfl

end Loop

/-! ## The file and the table -/

/-- The table is what the file says, or what it was if the file is not well formed. -/
def LoadExact (junk : RtFields) (file : List UInt8) (prior : List SrRt) : Prop :=
  srLoadRt junk file prior = match fileEntries (lines file) with
    | some rts => .ret 0 rts
    | none => .ret (-1) prior

instance (junk : RtFields) (file : List UInt8) (prior : List SrRt) : Decidable (LoadExact junk file prior) :=
  inferInstanceAs (Decidable (_ = _))

/-- Some line is rejected with the fields it takes over, and the entries loaded
before it, if any, are those the table had. -/
def Rejected (junk : RtFields) (prior : List SrRt) (lines : List (List UInt8)) : Prop :=
  ∃ pre line post, lines = pre ++ line :: post ∧ (carried junk (pre ++ [line])).entry = none ∧
    ∃ rts, carriedEntries junk pre = some rts ∧ (pre = [] ∨ rts = prior)

/-- Loading is exact if all lines are well formed and there is one, or the
table was empty; or if a line is rejected before the table has changed. -/
theorem load_exact_iff {file : List UInt8} (hfit : FileFits file) (junk : RtFields) (prior : List SrRt) :
    LoadExact junk file prior ↔
      ((∀ line ∈ lines file, (lineEntry line).isSome) ∧ (lines file ≠ [] ∨ prior = [])) ∨
        Rejected junk prior (lines file) := by
  have hfields : ∀ line ∈ lines file, ∀ field ∈ sscanf 4 line, field.length < 32 := fun line hl => (hfit line hl).2
  have hload : srLoadRt junk file prior = loadLoop junk false prior (lines file) := by
    rw [srLoadRt, fgetsAll_eq fun line hl => (hfit line hl).1]
  rw [LoadExact, hload, ← fileEntries_isSome]
  generalize lines file = ls at hfields
  cases hfile : fileEntries ls with
  | some rts =>
    have hall := @carriedEntries_fileEntries junk ls rts hfile
    have hnot : ¬ Rejected junk prior ls := by
      rintro ⟨pre, line, post, rfl, hbad, -⟩
      exact carriedEntries_entry hall hbad
    have hloop := @loadLoop_append junk ls prior rts hfields hall false []
    rw [List.append_nil] at hloop
    simp only [hloop, Option.isSome_some, true_and, hnot, or_false]
    by_cases hls : ls = []
    · subst hls
      cases hall
      simp [loadLoop]
    · simp [hls, loadLoop]
  | none =>
    simp only [Option.isSome_none, Bool.false_eq_true, false_and, false_or]
    constructor
    · intro h
      rcases carried_cases junk ls with ⟨rts, hall⟩ | ⟨pre, line, post, rfl, hbad, rts, hpre⟩
      · have hloop := @loadLoop_append junk ls prior rts hfields hall false []
        rw [List.append_nil, h] at hloop
        split at hloop
        · cases hloop
        · cases hloop
      · rw [loadLoop_rejected hfields hpre hbad] at h
        refine ⟨pre, line, post, rfl, hbad, rts, hpre, ?_⟩
        by_cases hnil : pre = []
        · exact .inl hnil
        · rw [if_neg hnil] at h
          exact .inr (Loaded.ret.inj h).2
    · rintro ⟨pre, line, post, rfl, hbad, rts, hpre, hprior⟩
      rw [loadLoop_rejected hfields hpre hbad]
      rcases hprior with rfl | rfl
      · rfl
      · rw [ite_self]

namespace Sample

/-- Nothing in the arrays. -/
def noFields : RtFields := ⟨[], [], [], []⟩

/-- `10.0.0.0 0 255.255.255.0 eth1`. -/
def routeLine : List UInt8 :=
  [49, 48, 46, 48, 46, 48, 46, 48, 32, 48, 32, 50, 53, 53, 46, 50, 53, 53, 46, 50, 53, 53, 46, 48, 32, 101, 116, 104, 49, 10]

/-- The entry of `routeLine`. -/
def route : SrRt := ⟨0x0000000A, 0, 0x00FFFFFF, ⟨[101, 116, 104, 49], by decide, by decide⟩⟩

end Sample

open Sample in
/-- The blank line at the end repeats the route before it. -/
theorem blank_line_repeats : FileFits (routeLine ++ [10]) ∧ ¬ LoadExact noFields (routeLine ++ [10]) [] ∧
    srLoadRt noFields (routeLine ++ [10]) [] = .ret 0 [route, route] := by
  decide +kernel

open Sample in
/-- A blank line that comes first is rejected before anything is lost. -/
theorem load_exact_blank_first : LoadExact noFields (10 :: routeLine) [route] :=
  (load_exact_iff (by decide +kernel) noFields [route]).2 (.inr ⟨[], [10], [routeLine], by decide +kernel, by decide +kernel,
    [], rfl, .inl rfl⟩)

end SimpleRouter
