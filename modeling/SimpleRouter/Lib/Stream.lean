import SimpleRouter.Lib.CProg
/-!
# Reading from a socket

A socket is the list of what the calls of `recv` and `read` on it come to. A
call may give fewer bytes than it asked for, and what is left of an answer is
there for the next call. `fill` is the usual loop that calls until a part of a
buffer is full, taking up an interrupted call again. As long as no call fails,
what it reads depends on the bytes of the socket alone, not on how they are cut
up or interrupted (`fill_contents`).
-/
open Memory CProg

namespace Stream

/-- What one call comes to; no bytes at all mean that the peer has closed. -/
inductive Recv where
  | bytes (bs : List UInt8)
  | eintr
  | error
deriving DecidableEq

abbrev Sock := List Recv

def Recv.contents : Recv → List UInt8
  | .bytes bs => bs
  | .eintr => []
  | .error => []

/-- The bytes to come. -/
def contents (sock : Sock) : List UInt8 := sock.flatMap Recv.contents

/-- No call fails, but for interrupts. -/
def Sound (sock : Sock) : Prop := .error ∉ sock

instance (sock : Sock) : Decidable (Sound sock) := inferInstanceAs (Decidable (¬ _))

inductive Filled where
  | done (b : Buf) (rest : Sock)
  | failed
  /-- Nothing more has come yet. -/
  | waiting

variable {S A : Type}

/-- `while (got < want) { recv(fd, b + off + got, want - got) .. }`. -/
def fill (off want : Nat) (b : Buf) (got : Nat) : Sock → Prog S A Filled
  | [] => pure (if want ≤ got then .done b [] else .waiting)
  | e :: sock =>
    if want ≤ got then pure (.done b (e :: sock))
    else match e with
      | .eintr => fill off want b got sock
      | .error => pure .failed
      | .bytes bs =>
        if want - got < bs.length then do
          let b ← storeBytes b (off + got) (bs.take (want - got))
          pure (.done b (.bytes (bs.drop (want - got)) :: sock))
        else do
          let b ← storeBytes b (off + got) bs
          fill off want b (got + bs.length) sock

/-! ## What a loop reads -/

theorem fill_full {off want : Nat} {b : Buf} {got : Nat} (h : want ≤ got) (sock : Sock) :
    (fill off want b got sock : Prog S A Filled) = pure (.done b sock) := by
  cases sock with
  | nil => rw [fill, if_pos h]
  | cons e sock => cases e <;> simp only [fill, if_pos h]

theorem Sound.tail {e : Recv} {sock : Sock} (h : Sound (e :: sock)) : Sound sock :=
  fun he => h (List.mem_cons_of_mem _ he)

/-- The first bytes of two equal sequences. -/
theorem take_of_append_eq {α : Type} {bs tail front rest : List α} (h : bs ++ tail = front ++ rest)
    (hl : front.length ≤ bs.length) : bs.take front.length = front ∧ bs.drop front.length ++ tail = rest := by
  have ht := congrArg (List.take front.length) h
  have hd := congrArg (List.drop front.length) h
  rw [List.take_left, List.take_append_of_le_length hl] at ht
  rw [List.drop_left, List.drop_append_of_le_length hl] at hd
  exact ⟨ht, hd⟩

/-- The loop takes the next bytes of the socket and leaves the others. -/
theorem fill_contents {off want : Nat} {sock : Sock} {front rest : List UInt8} {b : Buf} {got : Nat}
    (hs : Sound sock) (hc : contents sock = front ++ rest) (hl : got + front.length = want) :
    ∃ sock', Computes (fill off want b got sock : Prog S A Filled) (.done (b.store (off + got) front) sock') ∧
      contents sock' = rest ∧ Sound sock' := by
  induction sock generalizing front b got with
  | nil =>
    obtain ⟨rfl, rfl⟩ := List.append_eq_nil_iff.1 hc.symm
    have hle : want ≤ got := by
      rw [← hl]
      exact Nat.le_refl _
    refine ⟨[], ?_, rfl, hs⟩
    rw [fill_full hle, Buf.store_nil]
    exact fun s => ⟨rfl, rfl, rfl⟩
  | cons e sock ih =>
    by_cases hfull : want ≤ got
    · obtain rfl : front = [] := List.length_eq_zero_iff.1 (by omega)
      refine ⟨e :: sock, ?_, hc, hs⟩
      rw [fill_full hfull, Buf.store_nil]
      exact fun s => ⟨rfl, rfl, rfl⟩
    · cases e with
      | eintr =>
        obtain ⟨sock', h1, h2⟩ := ih hs.tail hc hl
        refine ⟨sock', ?_, h2⟩
        simp only [fill, if_neg hfull]
        exact h1
      | error => exact absurd List.mem_cons_self hs
      | bytes bs =>
        have hc' : bs ++ contents sock = front ++ rest := hc
        by_cases hmore : want - got < bs.length
        · -- the answer holds more than was asked for
          have hn : want - got = front.length := by omega
          obtain ⟨ht, hd⟩ := take_of_append_eq hc' (by omega)
          refine ⟨.bytes (bs.drop front.length) :: sock, ?_, hd, ?_⟩
          · simp only [fill, if_neg hfull, if_pos hmore]
            rw [hn, ht]
            exact fun s => ⟨rfl, rfl, rfl⟩
          · intro he
            rcases List.mem_cons.1 he with he | he
            · cases he
            · exact hs.tail he
        · obtain ⟨ht, hd⟩ := take_of_append_eq hc'.symm (by omega)
          have hfront : bs ++ front.drop bs.length = front := by
            calc bs ++ front.drop bs.length = front.take bs.length ++ front.drop bs.length := by rw [ht]
              _ = front := List.take_append_drop _ _
          have hlen : got + bs.length + (front.drop bs.length).length = want := by
            rw [List.length_drop]
            omega
          obtain ⟨sock', h1, h2⟩ := @ih (front.drop bs.length) (b.store (off + got) bs) (got + bs.length) hs.tail
            hd.symm hlen
          refine ⟨sock', ?_, h2⟩
          rw [← Nat.add_assoc, Buf.store_append, hfront] at h1
          simp only [fill, if_neg hfull, if_neg hmore]
          exact Computes.bind (fun s => ⟨rfl, rfl, rfl⟩) h1

/-- With fewer bytes than it wants the loop goes on calling. -/
theorem fill_short {off want : Nat} {sock : Sock} {b : Buf} {got : Nat} (hs : Sound sock)
    (hshort : got + (contents sock).length < want) : Computes (fill off want b got sock : Prog S A Filled) .waiting := by
  induction sock generalizing b got with
  | nil =>
    have hnot : ¬ want ≤ got := by
      simp only [contents, List.flatMap_nil, List.length_nil] at hshort
      omega
    rw [fill, if_neg hnot]
    exact .pure _
  | cons e sock ih =>
    have hnot : ¬ want ≤ got := by omega
    cases e with
    | eintr =>
      simp only [fill, if_neg hnot]
      exact ih hs.tail hshort
    | error => exact absurd List.mem_cons_self hs
    | bytes bs =>
      have hlen : (contents (.bytes bs :: sock)).length = bs.length + (contents sock).length := List.length_append
      rw [hlen] at hshort
      have hall : ¬ want - got < bs.length := by omega
      simp only [fill, if_neg hnot, if_neg hall]
      apply Computes.bind (.storeBytes _ _ _)
      apply ih hs.tail
      omega

/-- The socket once its peer has closed: after what was sent, `n` calls that
give no bytes. -/
def closed (sock : Sock) (n : Nat) : Sock := sock ++ List.replicate n (.bytes [])

theorem contents_closed (sock : Sock) (n : Nat) : contents (closed sock n) = contents sock := by
  have hnil : (List.replicate n (Recv.bytes [])).flatMap Recv.contents = [] := by
    rw [List.flatMap_eq_nil_iff]
    intro e he
    rw [List.eq_of_mem_replicate he]
    rfl
  rw [contents, closed, List.flatMap_append, hnil, List.append_nil]
  rfl

theorem sound_closed {sock : Sock} (hs : Sound sock) (n : Nat) : Sound (closed sock n) := by
  intro he
  rcases List.mem_append.1 he with he | he
  · exact hs he
  · cases List.eq_of_mem_replicate he

/-- Whatever the calls come to, the loop does no more than compute. -/
theorem fill_computes (off want : Nat) (b : Buf) (got : Nat) (sock : Sock) :
    ∃ filled, Computes (fill off want b got sock : Prog S A Filled) filled := by
  induction sock generalizing b got with
  | nil => exact ⟨_, .pure _⟩
  | cons e sock ih =>
    by_cases hfull : want ≤ got
    · rw [fill_full hfull]
      exact ⟨_, .pure _⟩
    · cases e with
      | eintr =>
        simp only [fill, if_neg hfull]
        exact ih b got
      | error =>
        simp only [fill, if_neg hfull]
        exact ⟨_, .pure _⟩
      | bytes bs =>
        by_cases hmore : want - got < bs.length
        · simp only [fill, if_neg hfull, if_pos hmore]
          exact ⟨_, Computes.bind (.storeBytes _ _ _) (.pure _)⟩
        · obtain ⟨filled, h⟩ := ih (b.store (off + got) bs) (got + bs.length)
          simp only [fill, if_neg hfull, if_neg hmore]
          exact ⟨filled, Computes.bind (.storeBytes _ _ _) h⟩

/-- The loop writes between `off + got` and `off + want` only. -/
theorem fill_safe {off want : Nat} {sock : Sock} {b : Buf} {got : Nat} (h : off + want ≤ b.size) (s : S) :
    Safe (fill off want b got sock : Prog S A Filled) s := by
  induction sock generalizing b got with
  | nil => exact safe_pure _ _
  | cons e sock ih =>
    by_cases hfull : want ≤ got
    · rw [fill_full hfull]
      exact safe_pure _ _
    · cases e with
      | eintr =>
        simp only [fill, if_neg hfull]
        exact ih h
      | error =>
        simp only [fill, if_neg hfull]
        exact safe_pure _ _
      | bytes bs =>
        by_cases hmore : want - got < bs.length
        · simp only [fill, if_neg hfull, if_pos hmore, safe_bind, safe_storeBytes, List.length_take, safe_pure, and_true]
          omega
        · simp only [fill, if_neg hfull, if_neg hmore, safe_bind, safe_storeBytes, storeBytes_apply]
          exact ⟨by omega, ih h⟩

end Stream
