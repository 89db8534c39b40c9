import SimpleRouter.Reassembly
/-!
# The end of the stream

What `sr_read_from_server_expect` does when the server has closed the connection
and every further call gives no bytes. Both of its loops take that for a call
that has given nothing yet, so they end only if the bytes they wait for were
sent before (`ends_iff`).
-/
open Memory CProg Stream Struct

namespace SimpleRouter

/-- After some number of socket calls with nothing more to come, reading is over:
the call goes on with a command, or returns without one. -/
def Ends (env : ServerEnv) (expected : UInt32) (sock : Sock) (sr : SrInstance) : Prop :=
  ∃ n, (parse env expected (closed sock n) sr).val ≠ .waiting

/-- The length word a stream starts with. -/
def lengthWord (bs : List UInt8) : UInt32 := swap32 ((memOf bs).u32 0)

theorem lengthWord_split {bs : List UInt8} (h : 4 ≤ bs.length) : bs = be 4 (lengthWord bs).toNat ++ bs.drop 4 := by
  match bs, h with
  | a :: b :: c :: d :: rest, _ =>
    rw [lengthWord, be_four, swap32_swap32, Mem.le32_u32]
    rfl

section Receive
variable {past : Mem} {sock : Sock}

/-- A stream that ends within the length word or the body keeps the call waiting. -/
theorem receive_waiting (hs : Sound sock)
    (hshort : 4 ≤ (contents sock).length →
      (lengthWord (contents sock)).toNat ≤ 10000 ∧ (contents sock).length < (lengthWord (contents sock)).toNat) :
    Computes (receive past sock) .waiting := by
  by_cases h4 : 4 ≤ (contents sock).length
  · obtain ⟨hle, hlt⟩ := hshort h4
    obtain ⟨sock1, h1, hc1, hs1⟩ := @fill_contents SrInstance Act 0 4 sock _ _ ⟨4, past⟩ 0 hs (lengthWord_split h4)
      (by simp)
    apply h1.bind
    apply Computes.bind (.load32 _ _)
    rw [Nat.add_zero, load_len, if_neg (by omega)]
    apply Computes.bind (.store32 _ _ _)
    refine (fill_short hs1 ?_).bind (.pure _)
    rw [hc1, List.length_drop]
    omega
  · exact (fill_short hs (by omega)).bind (.pure _)

/-- Else the call has what it waits for. -/
theorem receive_ends (hs : Sound sock) (h4 : 4 ≤ (contents sock).length)
    (hlen : (lengthWord (contents sock)).toNat ≤ 10000 →
      (lengthWord (contents sock)).toNat ≤ (contents sock).length) :
    ∃ received, Computes (receive past sock) received ∧ received ≠ .waiting := by
  have hsplit := lengthWord_split h4
  by_cases hmax : (lengthWord (contents sock)).toNat ≤ 10000
  · have hle := hlen hmax
    -- the body is what is left, up to the length that was announced
    have hbody : contents sock = be 4 (lengthWord (contents sock)).toNat ++
        (((contents sock).drop 4).take ((lengthWord (contents sock)).toNat - 4) ++
          ((contents sock).drop 4).drop ((lengthWord (contents sock)).toNat - 4)) := by
      rw [List.take_append_drop]
      exact hsplit
    obtain ⟨sock', h, -, -⟩ := @receive_command past sock _ _ _ hs hbody hmax (by
      rw [List.length_take, List.length_drop]
      omega)
    exact ⟨_, h, nofun⟩
  · exact ⟨.refused, receive_refused hs hsplit (by omega), nofun⟩

end Receive

section Parse
variable {env : ServerEnv} {expected : UInt32} {sock : Sock} {sr : SrInstance}

theorem parse_waiting (h : Computes (receive env.past sock) .waiting) : (parse env expected sock sr).val = .waiting := by
  rw [parse, bind_val, h.val, h.st]
  rfl

theorem parse_over {received : Received} (h : Computes (receive env.past sock) received) (hne : received ≠ .waiting) :
    (parse env expected sock sr).val ≠ .waiting := by
  rw [parse, bind_val, h.val, h.st]
  cases received with
  | waiting => exact absurd rfl hne
  | refused => exact nofun
  | command command len b rest => exact nofun

/-- However often a call on a closed stream that is too short is repeated, it waits. -/
theorem not_ends (hs : Sound sock)
    (hshort : 4 ≤ (contents sock).length →
      (lengthWord (contents sock)).toNat ≤ 10000 ∧ (contents sock).length < (lengthWord (contents sock)).toNat) :
    ¬ Ends env expected sock sr := by
  rintro ⟨n, hn⟩
  apply hn
  apply parse_waiting
  apply receive_waiting (sound_closed hs n)
  rwa [contents_closed]

end Parse

/-- When the server closes the connection, a call ends exactly if all it waits
for has been sent: the length word, and if this is not refused, a command as long
as it says. -/
theorem ends_iff {sock : Sock} (hs : Sound sock) (env : ServerEnv) (expected : UInt32) (sr : SrInstance) :
    Ends env expected sock sr ↔ 4 ≤ (contents sock).length ∧
      ((lengthWord (contents sock)).toNat ≤ 10000 →
        (lengthWord (contents sock)).toNat ≤ (contents sock).length) := by
  constructor
  · intro hends
    by_contra hnot
    refine not_ends hs ?_ hends
    intro h4
    refine ⟨?_, ?_⟩
    · by_contra hmax
      exact hnot ⟨h4, fun hle => absurd hle hmax⟩
    · by_contra hlt
      exact hnot ⟨h4, fun _ => by omega⟩
  · rintro ⟨h4, hlen⟩
    have hclosed : closed sock 0 = sock := List.append_nil sock
    obtain ⟨received, h, hne⟩ := @receive_ends env.past sock hs h4 hlen
    refine ⟨0, ?_⟩
    rw [hclosed]
    exact parse_over h hne

namespace Sample

/-- The stream ends within the length word. -/
def cutLength : Sock := [.bytes [0, 0, 0]]

/-- A command of eight bytes, in two pieces. -/
def wholeCommand : Sock := [.bytes [0, 0, 0, 8, 0], .bytes [0, 0, 1]]

end Sample

open Sample in
/-- A stream of three bytes is waited for without end. -/
theorem cut_length_waits : Sound cutLength ∧ ¬ Ends serverEnv 0 cutLength (.init ifs rts) :=
  ⟨by decide, not_ends (by decide) (fun h => absurd h (by decide))⟩

open Sample in
theorem ends_iff_whole : Ends serverEnv 0 wholeCommand (.init ifs rts) :=
  (ends_iff (by decide) serverEnv 0 (.init ifs rts)).2 (by decide +kernel)

end SimpleRouter
