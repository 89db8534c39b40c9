import SimpleRouter.SessionSafety
import SimpleRouter.Neighbours
import SimpleRouter.Settling
/-!
# The router in a session

What holds of every run of the router by itself holds of the router in a session.
Each event of a session is an event of the router or passes it by (`heard`); once it
has been told of its interfaces the router is where a router that had them from the
start is after what was heard, and has done the same (`session_refines_router`). So
no packet waits for ever in a session either (`session_settles`), and the router
keeps to the same conversations (`session_converses`).
-/
open Memory CProg Runs Stream

namespace SimpleRouter

/-- What an event of a session is to the handling of packets. -/
def heard (s : Session) : SessionEvent → Event
  | .read env _ =>
    match s.toClient with
    | [] => silence
    | w :: _ => if s.phase = .running ∧ w.type = vnsPacket then w.event env s.sr.ifList else silence
  | .sweep env => if s.phase = .running then .sweep env else silence
  | _ => silence

/-- What the router does. -/
def SessionAct.routed : SessionAct → Option Act
  | .router a => some a
  | .server _ => none

theorem routed_map (acts : List Act) : (acts.map SessionAct.router).filterMap SessionAct.routed = acts := by
  rw [List.filterMap_map]
  exact List.filterMap_some

theorem routed_server (rs : List Reaction) : (rs.map SessionAct.server).filterMap SessionAct.routed = [] := by
  rw [List.filterMap_map, List.filterMap_eq_nil_iff]
  exact fun _ _ => rfl

/-! ## Before there is an interface -/

theorem expireEntries_init (curtime : Int) : expireEntries curtime .init = .init := by
  unfold expireEntries ArpTable.init
  congr 1

/-- A sweep finds nothing to do in a router that has just been started. -/
theorem stepRes_init (n : Nat) (ifs : List SrIf) (rts : List SrRt) {e : Event} (he : e.isSweep ∨ e = silence) :
    (stepRes n (.init ifs rts) e).st = .init ifs rts ∧ (stepRes n (.init ifs rts) e).acts = [] := by
  rcases he with he | rfl
  · cases e with
    | frame => cases he
    | sweep env =>
      obtain ⟨hst, hacts⟩ := srArpcacheTimeout_spec env (.init ifs rts) List.nodup_nil
      refine ⟨?_, hacts⟩
      rw [stepRes, hst]
      change SrInstance.mk ifs rts ⟨expireEntries (env.clock 0) .init, []⟩ = _
      rw [expireEntries_init]
      rfl
  · exact ⟨rfl, rfl⟩

/-! ## One step -/

section Step
variable {P : Setup} {n : Nat} {s s' : Session} {e : SessionEvent} {acts : List SessionAct}

/-- How a step treats the router: as its event does, or it tells it of its interfaces. -/
inductive Hears (P : Setup) (n : Nat) (s : Session) (e : SessionEvent) (s' : Session) (acts : List SessionAct) : Prop where
  | routed (hs : s'.sr = (stepRes n s.sr (heard s e)).st)
      (hacts : acts.filterMap SessionAct.routed = (stepRes n s.sr (heard s e)).acts)
      (hinit : s.sr.ifList = [] → (heard s e).isSweep ∨ heard s e = silence)
  | told {added} (hi : s.sr.ifList = []) (he : heard s e = silence) (hs : s'.sr = { s.sr with ifList := added })
      (hacts : acts.filterMap SessionAct.routed = []) (hadded : added ≠ [])

/-- It hears nothing. -/
theorem Hears.silent (he : heard s e = silence) (hs : s'.sr = s.sr) (hacts : acts.filterMap SessionAct.routed = []) :
    Hears P n s e s' acts := by
  refine .routed ?_ ?_ fun _ => .inr he
  · rw [he, hs]
    rfl
  · rw [he, hacts]
    rfl

theorem Going.hears_read (h : Going P n s) (hP : P.Ready) (hlib : P.library.Frames) {env : ServerEnv}
    (hsent : env.authSent = true) (mem : Scratch) {expected : UInt32} {w : Wire} {ws : List Wire}
    (he : s.phase.expects = some expected) (hc : s.toClient = w :: ws) :
    Hears P n s (.read env mem) (clientReads P n env mem expected (P.library.frame w) { s with toClient := ws }).1
      ((clientReads P n env mem expected (P.library.frame w) { s with toClient := ws }).2.map .router) := by
  rw [hlib w (h.server.fromServer w (by rw [hc]; exact List.mem_cons_self)).short]
  have hheard : heard s (.read env mem) =
      if s.phase = .running ∧ w.type = vnsPacket then w.event env s.sr.ifList else silence := by
    rw [heard, hc]
  cases h.stage with
  | offline _ hc' => cases hc.symm.trans hc'
  | answered _ hc' => cases hc.symm.trans hc'
  | opening _ hc' => cases hc.symm.trans hc'
  | asked hp hc' _ _ hsalt =>
    obtain ⟨rfl, rfl⟩ := List.cons.inj (hc.symm.trans hc')
    rw [hp] at he
    cases he
    obtain ⟨reply, m, hm, hreads⟩ := @clientReads_request P n env { s with toClient := [] } hP hsent mem _ hsalt hp
    rw [hreads]
    refine .silent ?_ rfl rfl
    rw [hheard, hp, if_neg]
    exact fun h => absurd h.1 (by decide)
  | accepted hp hc' _ _ hmsg =>
    obtain ⟨rfl, rfl⟩ := List.cons.inj (hc.symm.trans hc')
    rw [hp] at he
    cases he
    obtain ⟨opening, m, hm, hreads⟩ := @clientReads_granted P n env { s with toClient := [] } hP mem _ hmsg hp
    rw [hreads]
    refine .silent ?_ rfl rfl
    rw [hheard, hp, if_neg]
    exact fun h => absurd h.1 (by decide)
  | @told ifs ws' hp hc' hs hi hnames hlen hcover hws =>
    obtain ⟨rfl, rfl⟩ := List.cons.inj (hc.symm.trans hc')
    rw [hp] at he
    cases he
    obtain ⟨added, hreads, -, hifs⟩ := h.reads_hardware hP env mem ws hp hi hnames hlen hcover
    rw [hreads]
    rw [h.router.wf.routes] at hcover
    refine @Hears.told P n s _ _ _ added hi ?_ rfl rfl ?_
    · rw [hheard, if_neg]
      exact fun h => absurd h.2 (by decide : vnsHwinfo ≠ vnsPacket)
    · rintro rfl
      obtain ⟨rt, hrt⟩ := List.exists_mem_of_ne_nil _ hP.routes
      have hcovered := hcover rt hrt
      rw [← hifs] at hcovered
      cases hcovered
  | wired hp hc' hs =>
    rw [hp] at he
    cases he
    have hw := hc' w (by rw [hc]; exact List.mem_cons_self)
    obtain ⟨res, hres, hreads, -⟩ := h.reads_packet env mem ws hp hw
    rw [hreads]
    rw [if_pos ⟨hp, hw.type⟩] at hheard
    rw [← hheard] at hres
    refine .routed ?_ ?_ fun hi => ?_
    · rw [← hres]
    · rw [← hres]
      exact routed_map res.acts
    · obtain ⟨name, hname, -⟩ := hw
      rw [hi] at hname
      cases hname

/-- Every step of a session that goes on. -/
theorem Going.hears (h : Going P n s) (hP : P.Ready) (hlib : P.library.Frames) (he : Fair P s e) :
    Hears P n s e (sessionStep P n s e).1 (sessionStep P n s e).2 := by
  cases e with
  | connectionUp ports arrange => exact .silent rfl rfl rfl
  | connect salt =>
    by_cases hp : s.phase = .offline
    · simp only [sessionStep, if_pos hp]
      exact .silent rfl rfl rfl
    · simp only [sessionStep, if_neg hp]
      exact .silent rfl rfl rfl
  | packetIn port pkt =>
    by_cases hserving : s.serving
    · simp only [sessionStep, if_pos hserving]
      exact .silent rfl rfl rfl
    · simp only [sessionStep, if_neg hserving]
      exact .silent rfl rfl rfl
  | serve conn =>
    cases hs : s.toServer with
    | nil =>
      simp only [sessionStep, hs]
      exact .silent rfl rfl rfl
    | cons w ws =>
      by_cases hserving : s.serving
      · simp only [sessionStep, hs, if_pos hserving]
        exact .silent rfl rfl (routed_server _)
      · simp only [sessionStep, hs, if_neg hserving]
        exact .silent rfl rfl rfl
  | read env mem =>
    cases hc : s.toClient with
    | nil =>
      have hheard : heard s (.read env mem) = silence := by rw [heard, hc]
      have hstep : sessionStep P n s (.read env mem) = (s, []) := by
        cases he : s.phase.expects with
        | none => simp only [sessionStep, he]
        | some expected => simp only [sessionStep, he, hc]
      rw [hstep]
      exact .silent hheard rfl rfl
    | cons w ws =>
      cases hexp : s.phase.expects with
      | none =>
        have hp : s.phase ≠ .running := by
          intro hp
          rw [hp] at hexp
          cases hexp
        have hheard : heard s (.read env mem) = silence := by
          rw [heard, hc]
          exact if_neg fun h => hp h.1
        have hstep : sessionStep P n s (.read env mem) = (s, []) := by simp only [sessionStep, hexp]
        rw [hstep]
        exact .silent hheard rfl rfl
      | some expected =>
        simp only [sessionStep, hexp, hc]
        exact h.hears_read hP hlib he mem hexp hc
  | sweep env =>
    by_cases hp : s.phase = .running
    · have hheard : heard s (.sweep env) = .sweep env := if_pos hp
      simp only [sessionStep, if_pos hp]
      refine .routed ?_ ?_ fun _ => .inl ?_
      · rw [hheard]
        rfl
      · rw [hheard]
        exact routed_map _
      · rw [hheard]
        rfl
    · have hheard : heard s (.sweep env) = silence := if_neg hp
      simp only [sessionStep, if_neg hp]
      exact .silent hheard rfl rfl

/-- A router that has been told of its interfaces keeps them. -/
theorem Hears.ifList (h : Hears P n s e s' acts) (hw : ClientWf P.routes n s.sr) (hi : s.sr.ifList ≠ []) :
    s'.sr.ifList = s.sr.ifList := by
  cases h with
  | routed hs =>
    rw [hs]
    exact ((step_cases hw.wf hw.counted (heard s e)).wf hw.wf).ifList
  | told hi' => exact absurd hi' hi

/-- A router that has interfaces is in its loop. -/
theorem Going.running (h : Going P n s) (hi : s.sr.ifList ≠ []) : s.phase = .running := by
  cases h.stage with
  | offline _ _ _ hi' => exact absurd hi' hi
  | asked _ _ _ hi' => exact absurd hi' hi
  | answered _ _ _ hi' => exact absurd hi' hi
  | accepted _ _ _ hi' => exact absurd hi' hi
  | opening hp => exact hp
  | told hp => exact hp
  | wired hp => exact hp

end Step

/-! ## Every run -/

/-- The router of the session `s`, with the actions `acts` of a run, is that of the
events `rs`: as it was started, or with the interfaces it has. -/
inductive Shadows (P : Setup) (rs : List Event) (s : Session) (acts : List SessionAct) : Prop where
  | untold (hs : s.sr = .init [] P.routes) (hacts : acts.filterMap SessionAct.routed = [])
      (hrs : ∀ ifs, (router ifs P.routes).state rs = .init ifs P.routes ∧ (router ifs P.routes).trace rs = [])
  | told (hi : s.sr.ifList ≠ []) (hs : s.sr = (router s.sr.ifList P.routes).state rs)
      (hacts : acts.filterMap SessionAct.routed = (router s.sr.ifList P.routes).trace rs)

theorem Shadows.step {P : Setup} {rs : List Event} {s s' : Session} {e : SessionEvent} {acts acts' : List SessionAct}
    (h : Shadows P rs s acts) (hw : ClientWf P.routes rs.length s.sr) (hh : Hears P rs.length s e s' acts') :
    Shadows P (rs ++ [heard s e]) s' (acts ++ acts') := by
  cases h with
  | untold hs hacts hrs =>
    -- a router that was never told of an interface hears sweeps only
    have hquiet : (heard s e).isSweep ∨ heard s e = silence := by
      cases hh with
      | routed _ _ hinit => exact hinit (by rw [hs]; rfl)
      | told _ he => exact .inr he
    have hrs' : ∀ ifs, (router ifs P.routes).state (rs ++ [heard s e]) = .init ifs P.routes ∧
        (router ifs P.routes).trace (rs ++ [heard s e]) = [] := by
      intro ifs
      obtain ⟨hstate, htrace⟩ := hrs ifs
      obtain ⟨hst, hacts⟩ := stepRes_init rs.length ifs P.routes hquiet
      rw [System.state_snoc, System.trace_snoc, System.actsAt, hstate, htrace]
      exact ⟨hst, hacts⟩
    cases hh with
    | routed hs' hacts' _ =>
      obtain ⟨hst, hnone⟩ := stepRes_init rs.length [] P.routes hquiet
      rw [hs] at hs' hacts'
      refine .untold (hs'.trans hst) ?_ hrs'
      rw [List.filterMap_append, hacts, hacts', hnone]
      rfl
    | @told added _ _ hs' hacts' hadded =>
      rw [hs] at hs'
      have hacts'' : (acts ++ acts').filterMap SessionAct.routed = [] := by
        rw [List.filterMap_append, hacts, hacts']
        rfl
      refine .told ?_ ?_ ?_
      · rw [hs']
        exact hadded
      · rw [hs', (hrs' _).1]
        rfl
      · rw [hacts'', (hrs' _).2]
  | told hi hs hacts =>
    have hifs := hh.ifList hw hi
    cases hh with
    | told hi' => exact absurd hi' hi
    | routed hs' hacts' _ =>
      refine .told (hifs ▸ hi) ?_ ?_
      · rw [hifs, System.state_snoc, ← hs]
        exact hs'
      · rw [hifs, List.filterMap_append, System.trace_snoc, System.actsAt, ← hs, hacts, hacts']
        rfl

/-- In both cases it is the router with the interfaces it has. -/
theorem Shadows.refines {P : Setup} {rs : List Event} {s : Session} {acts : List SessionAct} (h : Shadows P rs s acts) :
    s.sr = (router s.sr.ifList P.routes).state rs ∧
      acts.filterMap SessionAct.routed = (router s.sr.ifList P.routes).trace rs := by
  cases h with
  | untold hs hacts hrs =>
    rw [hs, hacts]
    obtain ⟨hstate, htrace⟩ := hrs []
    exact ⟨hstate.symm, htrace.symm⟩
  | told _ hs hacts => exact ⟨hs, hacts⟩

theorem run_shadows {P : Setup} (hP : P.Ready) (hlib : P.library.Documented) {es : List SessionEvent}
    (h : (session P).Along (Fair P) es) :
    Shadows P ((session P).translate heard es) ((session P).state es) ((session P).trace es) := by
  induction es using List.reverseRecOn with
  | nil => exact .untold rfl rfl fun _ => ⟨rfl, rfl⟩
  | append_singleton es e ih =>
    obtain ⟨hes, he⟩ := ((session P).along_snoc _ es e).1 h
    have hgoing := (fair_run hP hlib hes).1
    rw [System.translate_snoc, System.state_snoc, System.trace_snoc]
    apply (ih hes).step
    · rw [System.length_translate]
      exact hgoing.router.toClientWf
    · rw [System.length_translate]
      exact hgoing.hears hP hlib.frames he

/-- The router of a session is a router by itself: its state is the one that a router
with its interfaces reaches on what it has heard, and it has done the same. -/
theorem session_refines_router {P : Setup} (hP : P.Ready) (hlib : P.library.Documented) {es : List SessionEvent}
    (h : (session P).Along (Fair P) es) :
    ((session P).state es).sr =
      (router ((session P).state es).sr.ifList P.routes).state ((session P).translate heard es) ∧
    ((session P).trace es).filterMap SessionAct.routed =
      (router ((session P).state es).sr.ifList P.routes).trace ((session P).translate heard es) :=
  (run_shadows hP hlib h).refines

open Sample in
/-- The router has heard one frame, and answered it. -/
theorem session_refines_router_answers :
    (((session setup).trace answers).filterMap SessionAct.routed).length = 1 ∧
    ((session setup).state answers).sr =
      (router ((session setup).state answers).sr.ifList setup.routes).state ((session setup).translate heard answers) ∧
    ((session setup).trace answers).filterMap SessionAct.routed =
      (router ((session setup).state answers).sr.ifList setup.routes).trace ((session setup).translate heard answers) :=
  ⟨by decide +kernel, session_refines_router setup_ready library_documented answers_fair⟩

namespace Sample

/-- 10.0.0.5 sends a packet to 10.0.0.7, which the router asks for. -/
def asking : List SessionEvent :=
  [switchUp, dialled, reads, serves, reads, serves, reads, .packetIn 2 ⟨ping [10, 0, 0, 7], by decide⟩, reads]

def fiveSweeps : List SessionEvent :=
  ([1, 2, 3, 4, 5] : List Int).map fun now => .sweep ⟨fun _ => now, fun _ _ => 0, fun _ => 0⟩

theorem asking_fair : (session setup).Along (Fair setup) (asking ++ fiveSweeps) := by
  refine ⟨trivial, trivial, rfl, ?_, rfl, ?_, rfl, ?_, rfl, trivial, trivial, trivial, trivial, trivial, trivial⟩
  · exact @fair_serve setup _ [ethName 2, ethName 1] (by decide +kernel) (by decide) _
  · exact @fair_serve setup _ [ethName 2, ethName 1] (by decide +kernel) (by decide) _
  · exact @fair_packetIn setup _ 2 _ (ethName 2) (by decide +kernel) (by decide +kernel) (by decide)

end Sample

/-- What the router of a session says to an address and about it is a conversation
as well. -/
theorem session_converses {P : Setup} (hP : P.Ready) (hlib : P.library.Documented) {es : List SessionEvent}
    (h : (session P).Along (Fair P) es) (ip : UInt32) :
    (outputs P.routes ip (((session P).trace es).filterMap SessionAct.routed)).foldlM (Resolution.talk 5 1) .settled =
      some (((session P).state es).sr.cache.view ip).mode := by
  obtain ⟨hstate, htrace⟩ := (run_shadows hP hlib h).refines
  have htalk := (run_resolves ((session P).state es).sr.ifList P.routes ip ((session P).translate heard es)).talk (by decide)
  rw [← htrace, ← hstate] at htalk
  exact htalk

open Sample in
/-- The conversation about 10.0.0.7 is over when it has been given up. -/
theorem session_converses_asking : findReq 0x0700000A ((session setup).state (asking ++ fiveSweeps)).sr.cache.requests = none ∧
    (outputs setup.routes 0x0700000A (((session setup).trace (asking ++ fiveSweeps)).filterMap SessionAct.routed)).foldlM
      (Resolution.talk 5 1) .settled = some .settled := by
  have hnone : findReq 0x0700000A ((session setup).state (asking ++ fiveSweeps)).sr.cache.requests = none := by decide +kernel
  have htalk := session_converses setup_ready library_documented asking_fair 0x0700000A
  rw [view_settled hnone] at htalk
  exact ⟨hnone, htalk⟩

end SimpleRouter
