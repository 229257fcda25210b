import BatchPool.Pool.Run

/-!
# What a step of a pool can do

Every step of a pool in one relation, so that a property of all runs is shown case by case, and no
proof looks into the steps themselves.

* `Pool.Moves p step q events`: by `step` the pool `p` becomes `q`, and `events` happen. There is a
  constructor for each way in which a step goes, with all that holds before it.
* `Pool.Moves.of_step?`: a step that is possible is such a move; `Pool.Moves.step?_eq`: and each of
  them is possible.
* `Play.run_induction`: what holds at the start and is kept by every move holds after every run;
  `Play.run_preserves`: so it is from any play on.
-/

namespace BatchPool

namespace Pool

variable {J : Type}

/-- The moves of a pool. -/
inductive Moves (p : Pool J) : Step J → Pool J → List (Event J) → Prop where
  | enqueue {caller : Thread} {job : J} (free : p.mayCall caller = true) :
    Moves p (.enqueue caller job)
      { p with
        inFlight := p.inFlight + 1
        waiting := p.waiting ++ [{ caller := caller, job := job }] } []
  | insert {caller : Thread} {c : Waiting J} (call : p.waitingOf? caller = some c)
      (fresh : c.refused = false) (unclosed : p.closed = false) (room : p.isFull = false) :
    Moves p (.insert caller)
      { p with
        queue := p.queue ++ [{ number := p.inserted, job := c.job }]
        inserted := p.inserted + 1
        waiting := p.waiting.filter fun c => c.caller ≠ caller }
      [.accepted caller { number := p.inserted, job := c.job }]
  | refuse {caller : Thread} {c : Waiting J} (call : p.waitingOf? caller = some c)
      (fresh : c.refused = false) (closed : p.closed = true) :
    Moves p (.refuse caller)
      { p with
        waiting := p.waiting.map fun c =>
          if c.caller = caller then { c with refused := true } else c } []
  | rollback {caller : Thread} {c : Waiting J} (call : p.waitingOf? caller = some c)
      (refused : c.refused = true) :
    Moves p (.rollback caller)
      { p with
        inFlight := p.inFlight - 1
        waiting := p.waiting.filter fun c => c.caller ≠ caller }
      [.logged caller .rejected, .rejected caller c.job]
  | offerClosed {caller : Thread} {job : J} (free : p.mayCall caller = true)
      (closed : p.closed = true) :
    Moves p (.offer caller job) p [.logged caller .rejected, .rejected caller job]
  | offerFull {caller : Thread} {job : J} (free : p.mayCall caller = true)
      (unclosed : p.closed = false) (full : p.isFull = true) :
    Moves p (.offer caller job) p [.overflowed caller job]
  | offerTaken {caller : Thread} {job : J} (free : p.mayCall caller = true)
      (unclosed : p.closed = false) (room : p.isFull = false) :
    Moves p (.offer caller job)
      { p with
        queue := p.queue ++ [{ number := p.inserted, job := job }]
        inserted := p.inserted + 1
        inFlight := p.inFlight + 1 }
      [.accepted caller { number := p.inserted, job := job }]
  | close {caller : Thread} (free : p.mayCall caller = true) :
    Moves p (.close caller) { p with closed := true }
      (if p.closed then [] else [.logged caller .closed])
  | startFirst {caller : Thread} (free : p.mayCall caller = true)
      (stopped : p.lifecycle = .stopped) :
    Moves p (.start caller) { p with lifecycle := .starting caller 0 } []
  | startAgain {caller : Thread} (free : p.mayCall caller = true)
      (taken : p.lifecycle ≠ .stopped) :
    Moves p (.start caller) p [.startEnded caller (.error .alreadyRunning)]
  | spawnFails {caller : Thread} {n : Nat} (starting : p.lifecycle = .starting caller n) :
    Moves p (.spawn true) { p with lifecycle := .failed, closed := true } (p.failStart caller n).2
  | spawnWorker {caller : Thread} {n : Nat} {w : Worker J}
      (starting : p.lifecycle = .starting caller n) (here : p.workers[n]? = some w) :
    Moves p (.spawn false)
      { p with
        workers := p.workers.set n { w with phase := .announcing }
        lifecycle := .starting caller (n + 1)
        threads := p.threads ++ [.worker n] }
      [.logged (.worker n) (.workerStarted n)]
  | spawnLoop {caller : Thread} {n : Nat} (starting : p.lifecycle = .starting caller n)
      (last : p.workers[n]? = none) :
    Moves p (.spawn false)
      { p with lifecycle := .running, loop := .receiving, threads := p.threads ++ [.dispatch] }
      [.logged .dispatch .loopStarted, .logged caller (.started p.workerCount),
        .startEnded caller (.ok ())]
  | shutDown {caller : Thread} (free : p.mayCall caller = true) :
    Moves p (.shutDown caller)
      { p with closed := true, shutdowns := p.shutdowns ++ [(caller, .retiring)] }
      (if p.closed then [] else [.logged caller .closed])
  | retire {caller : Thread} (call : p.shutdownOf? caller = some .retiring) :
    Moves p (.retire caller)
      { p with
        lifecycle := if p.lifecycle = Lifecycle.stopped then .retired else p.lifecycle
        shutdowns := (p.setShutdown caller .collecting).shutdowns } []
  | collect {caller : Thread} (call : p.shutdownOf? caller = some .collecting)
      (unlocked : p.threadsLocked = false) :
    Moves p (.collect caller)
      { p with
        threads := []
        shutdowns := (p.setShutdown caller (.joining p.threads)).shutdowns } []
  | join {caller t : Thread} {rest : List Thread}
      (call : p.shutdownOf? caller = some (.joining (t :: rest))) (exited : p.exited t = true) :
    Moves p (.join caller) { p with shutdowns := (p.setShutdown caller (.joining rest)).shutdowns }
      (if p.died t then [.logged caller .threadPanicked] else [])
  | finish {caller : Thread} (call : p.shutdownOf? caller = some (.joining [])) :
    Moves p (.finish caller) { p with shutdowns := p.shutdowns.filter fun s => s.1 ≠ caller }
      [.logged caller .finished, .shutdownEnded caller]
  | idle {caller : Thread} (free : p.mayCall caller = true) (none : p.inFlight = 0) :
    Moves p (.idle caller) p [.idle caller]
  | drop (settled : ∀ caller n, p.lifecycle ≠ .starting caller n) (alone : p.dropped = false)
      (uncalled : p.waiting = []) (unjoined : p.shutdowns = []) :
    Moves p .drop
      { p with
        dropped := true, closed := true, threads := []
        lifecycle := if p.lifecycle = Lifecycle.stopped then .retired else p.lifecycle } []
  | take {t : Ticket J} {rest : List (Ticket J)} (receiving : p.loop = .receiving)
      (queue : p.queue = t :: rest) :
    Moves p .take { p with queue := rest, loop := .holding t } []
  | stopLoop (receiving : p.loop = .receiving) (queue : p.queue = []) (closed : p.closed = true) :
    Moves p .take { p with loop := .stopped } [.logged .dispatch .loopEnded]
  | claim {t : Ticket J} {w : Worker J} (holding : p.loop = .holding t) (turn : p.turn? = some w)
      (ready : w.ready = true) :
    Moves p .claim
      { p with
        workers := p.workers.set p.cursor { w with ready := false }
        loop := .handing t } []
  | claimGone {t : Ticket J} {w : Worker J} (holding : p.loop = .holding t)
      (turn : p.turn? = some w) (unready : w.ready = false) (gone : w.gone = true) :
    Moves p .claim { p with loop := .discarding t } []
  | hand {t : Ticket J} {w : Worker J} (handing : p.loop = .handing t) (turn : p.turn? = some w)
      (present : w.gone = false) (empty : w.slot = none) :
    Moves p .hand
      { p with
        workers := p.workers.set p.cursor { w with slot := some t }
        loop := .receiving
        cursor := (p.cursor + 1) % p.workerCount }
      [.handed p.cursor t]
  | handGone {t : Ticket J} {w : Worker J} (handing : p.loop = .handing t)
      (turn : p.turn? = some w) (gone : w.gone = true) :
    Moves p .hand { p with loop := .discarding t } []
  | discard {t : Ticket J} (discarding : p.loop = .discarding t) :
    Moves p (.discard false) { p with loop := .settling t }
      [.discarded p.cursor t, .reported .dispatch (.discarded p.cursor)]
  | discardFatal {t : Ticket J} (discarding : p.loop = .discarding t) :
    Moves p (.discard true) { p with loop := .dead t, closed := true }
      [.discarded p.cursor t, .reported .dispatch (.discarded p.cursor), .lost .dispatch t]
  | settle {t : Ticket J} (settling : p.loop = .settling t) :
    Moves p .settle
      { p with
        inFlight := p.inFlight - 1
        loop := .receiving
        cursor := (p.cursor + 1) % p.workerCount }
      [.completed .dispatch t]
  | announce {i : Nat} {w : Worker J} (here : p.workers[i]? = some w)
      (announcing : w.phase = .announcing) (held : p.handlesHeld = true)
      (unready : w.ready = false) :
    Moves p (.announce i)
      { p with workers := p.workers.set i { w with phase := .listening, ready := true } } []
  | announceStops {i : Nat} {w : Worker J} (here : p.workers[i]? = some w)
      (announcing : w.phase = .announcing) (unheld : p.handlesHeld = false) :
    Moves p (.announce i)
      { p with workers := p.workers.set i { w with phase := .stopped } }
      [.logged (.worker i) (.workerStopped i)]
  | receive {i : Nat} {w : Worker J} {t : Ticket J} (here : p.workers[i]? = some w)
      (listening : w.phase = .listening) (slot : w.slot = some t) :
    Moves p (.receive i)
      { p with workers := p.workers.set i { w with phase := .executing t, slot := none } }
      [.began i t]
  | receiveStops {i : Nat} {w : Worker J} (here : p.workers[i]? = some w)
      (listening : w.phase = .listening) (slot : w.slot = none) (unheld : p.handlesHeld = false) :
    Moves p (.receive i)
      { p with workers := p.workers.set i { w with phase := .stopped } }
      [.logged (.worker i) (.workerStopped i)]
  | conclude {i : Nat} {w : Worker J} {t : Ticket J} {outcome : Outcome} {panics : Bool}
      (here : p.workers[i]? = some w) (executing : w.phase = .executing t)
      (returned : p.busy (.worker i) = false) (good : outcome.report? i = none) :
    Moves p (.conclude i outcome panics)
      { p with workers := p.workers.set i { w with phase := .settling t } }
      [.ended i t outcome]
  | concludeReported {i : Nat} {w : Worker J} {t : Ticket J} {outcome : Outcome} {report : Report}
      (here : p.workers[i]? = some w) (executing : w.phase = .executing t)
      (returned : p.busy (.worker i) = false) (bad : outcome.report? i = some report) :
    Moves p (.conclude i outcome false)
      { p with workers := p.workers.set i { w with phase := .settling t } }
      [.ended i t outcome, .reported (.worker i) report]
  | concludeFatal {i : Nat} {w : Worker J} {t : Ticket J} {outcome : Outcome} {report : Report}
      (here : p.workers[i]? = some w) (executing : w.phase = .executing t)
      (returned : p.busy (.worker i) = false) (bad : outcome.report? i = some report) :
    Moves p (.conclude i outcome true)
      { p with workers := p.workers.set i { w with phase := .dead t } }
      [.ended i t outcome, .reported (.worker i) report, .lost (.worker i) t]
  | complete {i : Nat} {w : Worker J} {t : Ticket J} (here : p.workers[i]? = some w)
      (settling : w.phase = .settling t) :
    Moves p (.complete i)
      { p with
        workers := p.workers.set i { w with phase := .announcing }
        inFlight := p.inFlight - 1 }
      [.completed (.worker i) t]

namespace Moves

variable {p q : Pool J} {events : List (Event J)} {caller : Thread} {job : J} {i : Nat}

/-! ## Enqueueing -/

theorem of_enqueue (h : p.enqueue caller job = some (q, events)) :
    Moves p (.enqueue caller job) q events := by
  unfold Pool.enqueue at h
  split at h
  · next free => cases h; exact .enqueue free
  · cases h

theorem of_insertWaiting (h : p.insertWaiting caller = some (q, events)) :
    Moves p (.insert caller) q events := by
  unfold insertWaiting at h
  split at h
  · cases h
  · next c call =>
    split at h
    · cases h
    · next guard =>
      simp only [Bool.or_eq_true, not_or, Bool.not_eq_true] at guard
      obtain ⟨⟨fresh, unclosed⟩, room⟩ := guard
      cases h
      exact .insert call fresh unclosed room

theorem of_refuse (h : p.refuse caller = some (q, events)) : Moves p (.refuse caller) q events := by
  unfold Pool.refuse at h
  split at h
  · cases h
  · next c call =>
    split at h
    · next guard =>
      simp only [Bool.and_eq_true, Bool.not_eq_true'] at guard
      cases h
      exact .refuse call guard.1 guard.2
    · cases h

theorem of_rollback (h : p.rollback caller = some (q, events)) :
    Moves p (.rollback caller) q events := by
  unfold Pool.rollback at h
  split at h
  · cases h
  · next c call =>
    split at h
    · next refused => cases h; exact .rollback call refused
    · cases h

theorem of_offer (h : p.offer caller job = some (q, events)) :
    Moves p (.offer caller job) q events := by
  unfold Pool.offer at h
  split at h
  · next free =>
    split at h
    · next closed => cases h; exact .offerClosed free closed
    · next unclosed =>
      rw [Bool.not_eq_true] at unclosed
      split at h
      · next full => cases h; exact .offerFull free unclosed full
      · next room => cases h; exact .offerTaken free unclosed (by simpa using room)
  · cases h

/-! ## Starting and shutting down -/

/-- The pool behind closing the queue is the same, whether it was closed before or not. -/
theorem closeQueue_eq (p : Pool J) (caller : Thread) :
    p.closeQueue caller =
      ({ p with closed := true }, if p.closed then [] else [.logged caller .closed]) := by
  unfold closeQueue
  split
  · next closed => rw [← closed]
  · rfl

theorem of_close (h : p.close caller = some (q, events)) : Moves p (.close caller) q events := by
  unfold Pool.close at h
  split at h
  · next free =>
    rw [closeQueue_eq] at h
    cases h
    exact .close free
  · cases h

theorem of_start (h : p.start caller = some (q, events)) : Moves p (.start caller) q events := by
  unfold Pool.start at h
  split at h
  · next free =>
    split at h
    · next stopped => cases h; exact .startFirst free stopped
    · next taken => cases h; exact .startAgain free taken
  · cases h

theorem of_spawn {fails : Bool} (h : p.spawn fails = some (q, events)) :
    Moves p (.spawn fails) q events := by
  unfold Pool.spawn at h
  split at h
  · next caller n starting =>
    cases fails with
    | true => cases h; exact .spawnFails starting
    | false =>
      simp only [Bool.false_eq_true, if_false, startThread] at h
      split at h
      · next w here => cases h; exact .spawnWorker starting here
      · next last => cases h; exact .spawnLoop starting last
  · cases h

theorem of_shutDown (h : p.shutDown caller = some (q, events)) :
    Moves p (.shutDown caller) q events := by
  unfold Pool.shutDown at h
  split at h
  · next free =>
    rw [closeQueue_eq] at h
    cases h
    exact .shutDown free
  · cases h

theorem of_retire (h : p.retire caller = some (q, events)) : Moves p (.retire caller) q events := by
  unfold Pool.retire at h
  split at h
  · next call => cases h; exact .retire call
  · cases h

theorem of_collect (h : p.collect caller = some (q, events)) :
    Moves p (.collect caller) q events := by
  unfold Pool.collect at h
  split at h
  · next call =>
    split at h
    · cases h
    · next unlocked => cases h; exact .collect call (by simpa using unlocked)
  · cases h

theorem of_join (h : p.join caller = some (q, events)) : Moves p (.join caller) q events := by
  unfold Pool.join at h
  split at h
  · next t rest call =>
    split at h
    · next exited => cases h; exact .join call exited
    · cases h
  · cases h

theorem of_finish (h : p.finish caller = some (q, events)) : Moves p (.finish caller) q events := by
  unfold Pool.finish at h
  split at h
  · next call => cases h; exact .finish call
  · cases h

theorem of_idle (h : p.idle caller = some (q, events)) : Moves p (.idle caller) q events := by
  unfold Pool.idle at h
  split at h
  · next guard =>
    simp only [Bool.and_eq_true, decide_eq_true_eq] at guard
    cases h
    exact .idle guard.1 guard.2
  · cases h

theorem of_drop (h : p.drop = some (q, events)) : Moves p .drop q events := by
  unfold Pool.drop at h
  split at h
  · cases h
  · next settled =>
    split at h
    · cases h
    · next guard =>
      simp only [Bool.or_eq_true, not_or, Bool.not_eq_true, Bool.not_eq_false',
        List.isEmpty_iff] at guard
      obtain ⟨⟨alone, uncalled⟩, unjoined⟩ := guard
      cases h
      exact .drop settled alone uncalled unjoined

/-! ## The dispatch loop -/

theorem of_take (h : p.take = some (q, events)) : Moves p .take q events := by
  unfold Pool.take at h
  split at h
  · next t rest receiving queue => cases h; exact .take receiving queue
  · next receiving queue =>
    split at h
    · next closed => cases h; exact .stopLoop receiving queue closed
    · cases h
  · cases h

theorem of_claim (h : p.claim = some (q, events)) : Moves p .claim q events := by
  unfold Pool.claim at h
  split at h
  · next t w holding turn =>
    split at h
    · next ready => cases h; exact .claim holding turn ready
    · next unready =>
      split at h
      · next gone => cases h; exact .claimGone holding turn (by simpa using unready) gone
      · cases h
  · cases h

theorem of_hand (h : p.hand = some (q, events)) : Moves p .hand q events := by
  unfold Pool.hand at h
  split at h
  · next t w handing turn =>
    split at h
    · next gone => cases h; exact .handGone handing turn gone
    · next present =>
      split at h
      · next empty =>
        cases h
        rw [Bool.not_eq_true] at present
        simpa [nextTurn, setWorker, workerCount] using
          Moves.hand handing turn present (by simpa using empty)
      · cases h
  · cases h

theorem of_discard {panics : Bool} (h : p.discard panics = some (q, events)) :
    Moves p (.discard panics) q events := by
  unfold Pool.discard at h
  split at h
  · next t discarding =>
    cases panics with
    | true => cases h; exact .discardFatal discarding
    | false => cases h; exact .discard discarding
  · cases h

theorem of_settle (h : p.settle = some (q, events)) : Moves p .settle q events := by
  unfold Pool.settle at h
  split at h
  · next t settling => cases h; exact .settle settling
  · cases h

/-! ## The workers -/

theorem of_announce (h : p.announce i = some (q, events)) : Moves p (.announce i) q events := by
  unfold Pool.announce at h
  split at h
  · next ready slot here =>
    split at h
    · next unheld => cases h; exact .announceStops here rfl (by simpa using unheld)
    · next held =>
      split at h
      · cases h
      · next unready =>
        cases h
        exact .announce here rfl (by simpa using held) (by simpa using unready)
  · cases h

theorem of_receive (h : p.receive i = some (q, events)) : Moves p (.receive i) q events := by
  unfold Pool.receive at h
  split at h
  · next ready t here => cases h; exact .receive here rfl rfl
  · next ready here =>
    split at h
    · cases h
    · next unheld => cases h; exact .receiveStops here rfl rfl (by simpa using unheld)
  · cases h

theorem of_conclude {outcome : Outcome} {panics : Bool}
    (h : p.conclude i outcome panics = some (q, events)) :
    Moves p (.conclude i outcome panics) q events := by
  unfold Pool.conclude at h
  split at h
  · next t ready slot here =>
    split at h
    · cases h
    · next returned =>
      rw [Bool.not_eq_true] at returned
      split at h
      · next good => cases h; exact .conclude here rfl returned good
      · next report bad =>
        cases panics with
        | true => cases h; exact .concludeFatal here rfl returned bad
        | false => cases h; exact .concludeReported here rfl returned bad
  · cases h

theorem of_complete (h : p.complete i = some (q, events)) : Moves p (.complete i) q events := by
  unfold Pool.complete at h
  split at h
  · next t ready slot here => cases h; exact .complete here rfl
  · cases h

/-- A step that is possible is a move. -/
theorem of_step? {step : Step J} (h : p.step? step = some (q, events)) :
    Moves p step q events := by
  cases step with
  | enqueue => exact of_enqueue h
  | insert => exact of_insertWaiting h
  | refuse => exact of_refuse h
  | rollback => exact of_rollback h
  | offer => exact of_offer h
  | close => exact of_close h
  | start => exact of_start h
  | spawn => exact of_spawn h
  | shutDown => exact of_shutDown h
  | retire => exact of_retire h
  | collect => exact of_collect h
  | join => exact of_join h
  | finish => exact of_finish h
  | idle => exact of_idle h
  | drop => exact of_drop h
  | take => exact of_take h
  | claim => exact of_claim h
  | hand => exact of_hand h
  | discard => exact of_discard h
  | settle => exact of_settle h
  | announce => exact of_announce h
  | receive => exact of_receive h
  | conclude => exact of_conclude h
  | complete => exact of_complete h

/-- A move is a step that is possible. -/
theorem step?_eq (hm : Moves p step q events) : p.step? step = some (q, events) := by
  cases hm with
  | enqueue free => simp [step?, Pool.enqueue, free]
  | insert call fresh unclosed room =>
    simp [step?, insertWaiting, call, fresh, unclosed, room, Pool.insert, endWaiting]
  | refuse call fresh closed => simp [step?, Pool.refuse, call, fresh, closed]
  | rollback call refused => simp [step?, Pool.rollback, call, refused, endWaiting]
  | offerClosed free closed => simp [step?, Pool.offer, free, closed]
  | offerFull free unclosed full => simp [step?, Pool.offer, free, unclosed, full]
  | offerTaken free unclosed room => simp [step?, Pool.offer, free, unclosed, room, Pool.insert]
  | close free => simp [step?, Pool.close, free, closeQueue_eq]
  | startFirst free stopped => simp [step?, Pool.start, free, stopped]
  | startAgain free taken =>
    simp only [step?, Pool.start, free, if_true]
  | spawnFails starting => simp [step?, Pool.spawn, starting, failStart]
  | spawnWorker starting here => simp [step?, Pool.spawn, starting, startThread, here, setWorker]
  | spawnLoop starting last => simp [step?, Pool.spawn, starting, startThread, last]
  | shutDown free => simp [step?, Pool.shutDown, free, closeQueue_eq]
  | retire call => simp [step?, Pool.retire, call, setShutdown]
  | collect call unlocked => simp [step?, Pool.collect, call, unlocked, setShutdown]
  | join call exited => simp [step?, Pool.join, call, exited, setShutdown]
  | finish call => simp [step?, Pool.finish, call]
  | idle free none => simp [step?, Pool.idle, free, none]
  | drop settled alone uncalled unjoined =>
    simp [step?, Pool.drop, alone, uncalled, unjoined]
  | take receiving queue => simp [step?, Pool.take, receiving, queue]
  | stopLoop receiving queue closed => simp [step?, Pool.take, receiving, queue, closed]
  | claim holding turn ready => simp [step?, Pool.claim, holding, turn, ready, setWorker]
  | claimGone holding turn unready gone => simp [step?, Pool.claim, holding, turn, unready, gone]
  | hand handing turn present empty =>
    simp [step?, Pool.hand, handing, turn, present, empty, setWorker, nextTurn, workerCount]
  | handGone handing turn gone => simp [step?, Pool.hand, handing, turn, gone]
  | discard discarding => simp [step?, Pool.discard, discarding]
  | discardFatal discarding => simp [step?, Pool.discard, discarding]
  | settle settling => simp [step?, Pool.settle, settling, nextTurn, workerCount]
  | @announce i w here announcing held unready =>
    obtain ⟨phase, ready, slot⟩ := w
    cases announcing
    cases unready
    simp [step?, Pool.announce, here, held, setWorker]
  | @announceStops i w here announcing unheld =>
    obtain ⟨phase, ready, slot⟩ := w
    cases announcing
    simp [step?, Pool.announce, here, unheld, setWorker]
  | @receive i w t here listening slot =>
    obtain ⟨phase, ready, slot⟩ := w
    cases listening
    cases slot
    simp [step?, Pool.receive, here, setWorker]
  | @receiveStops i w here listening slot unheld =>
    obtain ⟨phase, ready, slot⟩ := w
    cases listening
    cases slot
    simp [step?, Pool.receive, here, unheld, setWorker]
  | @conclude i w t outcome panics here executing returned good =>
    obtain ⟨phase, ready, slot⟩ := w
    cases executing
    simp [step?, Pool.conclude, here, returned, good, setWorker]
  | @concludeReported i w t outcome report here executing returned bad
  | @concludeFatal i w t outcome report here executing returned bad =>
    obtain ⟨phase, ready, slot⟩ := w
    cases executing
    simp [step?, Pool.conclude, here, returned, bad, setWorker]
  | @complete i w t here settling =>
    obtain ⟨phase, ready, slot⟩ := w
    cases settling
    simp [step?, Pool.complete, here, setWorker]

theorem isSome_step? (h : Moves p step q events) : (p.step? step).isSome = true := by
  rw [h.step?_eq]
  rfl

end Moves

/-! ## Runs -/

namespace Play

/-- A step of a play is a move of its pool; what happened stands in front of the history. -/
theorem moves_of_step? {s t : Play J} {step : Step J} (h : s.step? step = some t) :
    ∃ q events, Moves s.pool step q events ∧ t = { s with pool := q }.record events := by
  unfold step? at h
  split at h
  · next q events hs => cases h; exact ⟨q, events, .of_step? hs, rfl⟩
  · cases h

/-- A move of its pool is a step of a play. -/
theorem step?_of_moves {s : Play J} {step : Step J} {q : Pool J} {events : List (Event J)}
    (hm : Moves s.pool step q events) : s.step? step = some ({ s with pool := q }.record events) := by
  rw [step?, hm.step?_eq]

/-- A run that goes on from where another one has led is one run with it. -/
theorem run?_trans {s t u : Play J} {a b : List (Step J)} (hs : s.run? a = some t)
    (h : t.run? b = some u) : s.run? (a ++ b) = some u := by
  rw [run?_append, hs]
  exact h

theorem run?_of_moves {s : Play J} {step : Step J} {q : Pool J} {events : List (Event J)}
    (hm : Moves s.pool step q events) (rest : List (Step J)) :
    s.run? (step :: rest) = ({ s with pool := q }.record events).run? rest := by
  rw [run?, step?_of_moves hm]

theorem isSome_step? {s : Play J} {step : Step J} :
    (s.step? step).isSome = (s.pool.step? step).isSome := by
  unfold Play.step?
  split <;> simp_all

/-- What holds of a pool at its start and is kept by every move holds after every run. -/
theorem run_induction {p : Pool J} {motive : List (Step J) → Play J → Prop}
    (start : motive [] { pool := p })
    (next : ∀ steps s step q events, Play.run? { pool := p } steps = some s → motive steps s →
      Moves s.pool step q events → motive (steps ++ [step]) ({ s with pool := q }.record events))
    {steps : List (Step J)} {s : Play J} (h : Play.run? { pool := p } steps = some s) :
    motive steps s := by
  -- The steps that are done are carried along, so that the induction is on those to come.
  suffices key : ∀ rest done (u : Play J), Play.run? { pool := p } done = some u → motive done u →
      u.run? rest = some s → motive (done ++ rest) s from
    key steps [] _ rfl start h
  intro rest
  induction rest with
  | nil =>
    intro done u _ hm hs
    simp only [run?, Option.some.injEq] at hs
    simpa [hs] using hm
  | cons step rest ih =>
    intro done u hu hm hs
    simp only [run?] at hs
    split at hs
    · next v hv =>
      obtain ⟨q, events, hmove, rfl⟩ := moves_of_step? hv
      have hdone : Play.run? { pool := p } (done ++ [step]) =
          some ({ u with pool := q }.record events) := by
        rw [run?_append, hu]
        simp [run?, hv]
      have := ih (done ++ [step]) _ hdone (next done u step q events hu hm hmove) hs
      simpa using this
    · cases hs

/-- What is kept by every move holds after every run that begins where it holds. -/
theorem run_preserves {motive : Play J → Prop} {s t : Play J} {rest : List (Step J)} (start : motive s)
    (next : ∀ u step q events, motive u → Moves u.pool step q events →
      motive ({ u with pool := q }.record events))
    (h : s.run? rest = some t) : motive t := by
  induction rest generalizing s with
  | nil =>
    cases h
    exact start
  | cons step rest ih =>
    simp only [run?] at h
    split at h
    · next u hu =>
      obtain ⟨q, events, hm, rfl⟩ := moves_of_step? hu
      exact ih (next s step q events start hm) h
    · cases h

end Play

end Pool

end BatchPool
