import HttpsServ.Conversation
import HttpsServ.Library.Descriptors
import HttpsServ.ServerLifecycle

/-!
# The server process

The connections run in threads of one process and share its descriptors. The main thread
accepts a socket and hands it over to a new thread by copying its descriptor. A socket is
closed while other connections go on, and its descriptor comes back for the next
socket or file. Each connection meets only the socket and the files that are its own.
-/

namespace HttpsServ.ServerProcess

open ByteString Utility Networking TlsAdapter Http MessageStream ResponseBytes KeepAlive
  ConnectionEnd Descriptors
open Conversation hiding Request
open ConfigurationText ServerLog
open HttpsServ.Configuration (confFile mem_all)
open ServerLifecycle hiding Serves Ready

/-- The threads of the process. -/
inductive Agent (T : Type)
  | main
  | connection (t : T)
  deriving DecidableEq

/-- The variables that hold a descriptor, or a stream over one. -/
inductive Handle
  | confFile
  | logFd
  | listenFd
  | clientFd
  | staticFile
  deriving DecidableEq

/-- What a descriptor stands for. A file is open for the thread that has opened it. -/
inductive Object (T : Type)
  | listener
  /-- The socket of a connection, with the application data that it has taken. -/
  | connection (t : T) (sent : Bytes)
  | file (opener : Agent T) (name : Bytes) (position : Nat)
  | logFile (opener : Agent T) (filename written : Bytes)

section Requests

variable {T : Type}

def Object.send (data : Bytes) : Object T → Object T
  | .connection t sent => .connection t (sent ++ data)
  | object => object

def Object.advance (size : Nat) : Object T → Object T
  | .file opener name position => .file opener name (position + size)
  | object => object

def Object.append (message : Bytes) : Object T → Object T
  | .logFile opener filename written => .logFile opener filename (written ++ message)
  | object => object

/-- `LogMessage`, whose file may not open. -/
def logRequests (a : Agent T) (opened : Bool) (filename message : Bytes) :
    List (Request Handle (Object T)) :=
  if opened then
    [.acquire .logFd (.logFile a filename []), .use .logFd (Object.append message), .release .logFd]
  else []

/-- What a call of a connection asks of the system. -/
def eventRequests (t : T) (logOpens : Bool) : Event → List (Request Handle (Object T))
  | .read _ => [.use .clientFd id]
  | .logMessage filename message => logRequests (.connection t) logOpens filename message
  | .fopen name true => [.acquire .staticFile (.file (.connection t) name 0)]
  | .fopen _ false => [.forget .staticFile]
  | .fread _ slice => [.use .staticFile (Object.advance slice.length)]
  | .write _ buffer result => [.use .clientFd (Object.send (buffer.take result.toNat))]
  | .fclose => [.release .staticFile]
  -- `mbedtls_net_free` leaves the socket at -1, which `mbedtls_net_send` looks for
  | .netFree => [.release .clientFd, .forget .clientFd]
  | .closeNotify => [.check .clientFd]
  | _ => []

/-- How often the handshake loop calls `mbedtls_ssl_handshake`, the call that has not
returned included. -/
def handshakeCalls : List Int → Nat
  | [] => 1
  | ret :: results =>
      if ret = wantRead ∨ ret = wantWrite then handshakeCalls results + 1 else 1

/-- A connection, from the results of its calls. -/
structure ThreadRun where
  env : Env
  reads : List ReadResult
  defaultDocument : Bytes
  rootFolder : Bytes
  /-- Whether the log file opens after that many calls. -/
  logOpens : Nat → Bool

def ThreadRun.outcome (run : ThreadRun) : Outcome :=
  handleConnection run.env run.reads (ThreadData.fresh run.defaultDocument run.rootFolder)

def ThreadRun.log (run : ThreadRun) : List Event := run.outcome.conn.log

def ThreadRun.handshakes (run : ThreadRun) : Nat :=
  if run.env.sslSetup = 0 then handshakeCalls run.env.sslHandshake else 0

/-- The requests of a connection before its calls: the copy of the socket that
`RunServer` has accepted for it, and the handshake. -/
def ThreadRun.opening (run : ThreadRun) (t : T) : List (Request Handle (Object T)) :=
  .receive .clientFd (.connection t []) :: List.replicate run.handshakes (.use .clientFd id)

/-- The requests of the calls, in their order. -/
def ThreadRun.requestsOfLog (run : ThreadRun) (t : T) (log : List Event) :
    List (Request Handle (Object T)) :=
  (log.mapIdx fun n e => eventRequests t (run.logOpens n) e).flatten

/-- All that a connection asks of the system. -/
def ThreadRun.requests (run : ThreadRun) (t : T) : List (Request Handle (Object T)) :=
  run.opening t ++ run.requestsOfLog t run.log

/-- What a call of the main thread asks of the system, when it has created `n` threads. -/
def callRequests (logOpens : Bool) (n : Nat) : Call → List (Request Handle (Object Nat))
  | .openConf true => [.acquire .confFile (.file .main (bytes "../default.conf") 0)]
  | .getline => [.use .confFile id]
  | .closeConf => [.release .confFile]
  | .logMessage filename message => logRequests .main logOpens filename message
  -- `mbedtls_net_init` sets the socket to -1
  | .init .listenFd => [.forget .listenFd]
  | .init .clientFd => [.forget .clientFd]
  | .netBind _ _ result => if result = 0 then [.acquire .listenFd .listener] else []
  -- `mbedtls_net_accept` sets the socket to what `accept` returns, which is -1 when it fails
  | .netAccept (some result) =>
      if result = 0 then [.use .listenFd id, .acquire .clientFd (.connection n [])]
      else [.use .listenFd id, .forget .clientFd]
  | .netAccept none => [.use .listenFd id]
  -- the thread has a copy of the socket in its `ThreadData`
  | .createThread _ _ result => if result = 0 then [.give .clientFd] else []
  | .free .listenFd => [.release .listenFd, .forget .listenFd]
  | _ => []

/-- What the calls of the main thread ask of the system, in their order. -/
def mainRequests (logOpens : Bool) (n : Nat) : List Call → List (Request Handle (Object Nat))
  | [] => []
  | call :: log =>
      callRequests logOpens n call ++ mainRequests logOpens (n + (created [call]).length) log

/-- The main thread on a configuration that it accepts, with a thread for each client. -/
structure MainRun where
  env : MainEnv
  startup : Startup
  accepted : Configured env.files 0 startup
  threaded : ∀ accept ∈ env.accepts, accept.Threaded
  /-- Whether the log file opens for `LogInit`. -/
  logOpens : Bool

def MainRun.outcome (run : MainRun) : MainOutcome := main run.env

def MainRun.log (run : MainRun) : List Call := run.outcome.log

/-- All that the main thread asks of the system. -/
def MainRun.requests (run : MainRun) : List (Request Handle (Object Nat)) :=
  mainRequests run.logOpens 0 run.log

end Requests

theorem acceptedBytes_snoc (log : List Event) (e : Event) :
    acceptedBytes (log ++ [e]) = acceptedBytes log ++ (acceptedOf e).getD [] := by
  rw [Conversation.acceptedBytes_append]
  congr 1
  cases h : acceptedOf e with
  | none => simp [acceptedBytes, acceptedPieces, h]
  | some piece => simp [acceptedBytes, acceptedPieces, h]

section Discipline

variable {T : Type}

/-- What a connection that has its socket holds between two calls. -/
structure Holds (t : T) (sent : Bytes) (isOpen : Bool) (q : Private Handle (Object T)) : Prop where
  socket : q .clientFd = .live (.connection t sent)
  file : (∃ object, q .staticFile = .live object) ↔ isOpen = true
  rest : ∀ v, v ≠ .clientFd → v ≠ .staticFile → ∀ object, q v ≠ .live object

section Updates

variable {t : T} {sent : Bytes} {isOpen : Bool} {q : Private Handle (Object T)}
  (h : Holds t sent isOpen q) {x : Holding (Object T)}
include h

theorem Holds.setSocket (sent' : Bytes) :
    Holds t sent' isOpen (Function.update q .clientFd (.live (.connection t sent'))) where
  socket := Function.update_self ..
  file := by simpa using h.file
  rest := by
    intro v hsocket hfile
    rw [Function.update_of_ne hsocket]
    exact h.rest v hsocket hfile

theorem Holds.setFile (object : Object T) :
    Holds t sent true (Function.update q .staticFile (.live object)) where
  socket := by simpa using h.socket
  file := by simp
  rest := by
    intro v hsocket hfile
    rw [Function.update_of_ne hfile]
    exact h.rest v hsocket hfile

theorem Holds.unsetFile (hx : ∀ object, x ≠ .live object) :
    Holds t sent false (Function.update q .staticFile x) where
  socket := by simpa using h.socket
  file := by simpa using hx
  rest := by
    intro v hsocket hfile
    rw [Function.update_of_ne hfile]
    exact h.rest v hsocket hfile

theorem Holds.setLogger (hx : ∀ object, x ≠ .live object) :
    Holds t sent isOpen (Function.update q .logFd x) where
  socket := by simpa using h.socket
  file := by simpa using h.file
  rest := by
    intro v hsocket hfile
    by_cases hlogger : v = .logFd
    · rw [hlogger, Function.update_self]
      exact hx
    · rw [Function.update_of_ne hlogger]
      exact h.rest v hsocket hfile

end Updates

/-- `LogMessage` closes what it has opened. -/
theorem logRequests_reaches {q : Private Handle (Object T)}
    (hlogger : ∀ object, q .logFd ≠ .live object) (a : Agent T) (opened : Bool)
    (filename message : Bytes) :
    ∃ x, (∀ object, x ≠ .live object) ∧
      q.Reaches (logRequests a opened filename message) (Function.update q .logFd x) := by
  cases opened with
  | false =>
      refine ⟨q .logFd, hlogger, ?_⟩
      rw [Function.update_eq_self]
      exact .nil
  | true =>
      refine ⟨.stale, (fun _ hlive => by cases hlive), ?_⟩
      apply Private.Reaches.acquire hlogger
      apply Private.Reaches.use (Function.update_self ..)
      apply Private.Reaches.release (Function.update_self ..)
      rw [Function.update_idem, Function.update_idem]
      exact .nil

/-- One call of a connection that is not being closed. -/
theorem Holds.step {t : T} {sent : Bytes} {isOpen isOpen' : Bool}
    {q : Private Handle (Object T)} (h : Holds t sent isOpen q) {e : Event}
    (hclosing : isClosing e = false) (hstep : handleStep isOpen e = some isOpen')
    (logOpens : Bool) :
    ∃ q', q.Reaches (eventRequests t logOpens e) q' ∧
      Holds t (sent ++ (acceptedOf e).getD []) isOpen' q' := by
  have hsilent : acceptedOf e = none →
      (∃ q', q.Reaches (eventRequests t logOpens e) q' ∧ Holds t sent isOpen' q') →
      ∃ q', q.Reaches (eventRequests t logOpens e) q' ∧
        Holds t (sent ++ (acceptedOf e).getD []) isOpen' q' := by
    rintro hnone ⟨q', hreaches, hholds⟩
    rw [hnone, Option.getD_none, List.append_nil]
    exact ⟨q', hreaches, hholds⟩
  cases e with
  | read result =>
      cases hstep
      exact hsilent rfl ⟨_, .use h.socket .nil, h.setSocket sent⟩
  | parse =>
      cases hstep
      exact hsilent rfl ⟨_, .nil, h⟩
  | logMessage filename message =>
      cases hstep
      have hlogger := h.rest .logFd (by decide) (by decide)
      obtain ⟨x, hx, hreaches⟩ := logRequests_reaches hlogger _ logOpens filename message
      exact hsilent rfl ⟨_, hreaches, h.setLogger hx⟩
  | logPerror message =>
      cases hstep
      exact hsilent rfl ⟨_, .nil, h⟩
  | logPrintf message =>
      cases hstep
      exact hsilent rfl ⟨_, .nil, h⟩
  | fopen name opened =>
      cases isOpen with
      | true => cases hstep
      | false =>
          cases hstep
          have hlost : ∀ object, q .staticFile ≠ .live object := by simpa using h.file
          cases isOpen' with
          | true => exact hsilent rfl ⟨_, .acquire hlost .nil, h.setFile _⟩
          | false =>
              refine hsilent rfl ⟨_, .forget hlost .nil, ?_⟩
              exact h.unsetFile fun _ hlive => by cases hlive
  | chunkCall total budget =>
      cases hstep
      exact hsilent rfl ⟨_, .nil, h⟩
  | fread offset slice =>
      cases isOpen with
      | false => cases hstep
      | true =>
          cases hstep
          obtain ⟨object, hlive⟩ := h.file.mpr rfl
          exact hsilent rfl ⟨_, .use hlive .nil, h.setFile _⟩
  | write site buffer result =>
      cases hstep
      exact ⟨_, .use h.socket .nil, h.setSocket _⟩
  | fclose =>
      cases isOpen with
      | false => cases hstep
      | true =>
          cases hstep
          obtain ⟨object, hlive⟩ := h.file.mpr rfl
          refine hsilent rfl ⟨_, .release hlive .nil, ?_⟩
          exact h.unsetFile fun _ hlive => by cases hlive
  | _ => cases hclosing

theorem ThreadRun.requestsOfLog_snoc (run : ThreadRun) (t : T) (log : List Event) (e : Event) :
    run.requestsOfLog t (log ++ [e]) =
      run.requestsOfLog t log ++ eventRequests t (run.logOpens log.length) e := by
  simp [ThreadRun.requestsOfLog]

/-- The calls of a connection that is not being closed. -/
theorem Holds.run {t : T} {q₀ : Private Handle (Object T)} (h : Holds t [] false q₀)
    (run : ThreadRun) (log : List Event) {isOpen : Bool}
    (hrunning : ∀ e ∈ log, isClosing e = false) (hhandle : handleAfter log = some isOpen) :
    ∃ q, q₀.Reaches (run.requestsOfLog t log) q ∧ Holds t (acceptedBytes log) isOpen q := by
  induction log using List.reverseRecOn generalizing isOpen with
  | nil =>
      cases hhandle
      exact ⟨q₀, .nil, h⟩
  | append_singleton log e ih =>
      rw [handleAfter_snoc] at hhandle
      obtain ⟨wasOpen, hbefore, hstep⟩ := Option.bind_eq_some_iff.mp hhandle
      obtain ⟨q, hreaches, hholds⟩ :=
        ih (fun e he => hrunning e (List.mem_append_left _ he)) hbefore
      obtain ⟨q', hreaches', hholds'⟩ :=
        hholds.step (hrunning e (List.mem_append_right _ List.mem_cons_self)) hstep
          (run.logOpens log.length)
      refine ⟨q', ?_, ?_⟩
      · rw [run.requestsOfLog_snoc]
        exact hreaches.append hreaches'
      · rw [acceptedBytes_snoc]
        exact hholds'

/-- The socket that a connection begins with, and its handshake. -/
theorem ThreadRun.opening_reaches (run : ThreadRun) (t : T) :
    ∃ q, Private.Reaches (fun _ => .nothing) (run.opening t) q ∧ Holds t [] false q := by
  refine ⟨Function.update (fun _ => .nothing) .clientFd (.live (.connection t [])), ?_, ?_⟩
  · apply Private.Reaches.receive (fun _ hlive => by cases hlive)
    exact .replicate_use (Function.update_self ..) _
  · refine ⟨Function.update_self .., by simp, ?_⟩
    intro v hsocket _ object
    rw [Function.update_of_ne hsocket]
    exact fun hlive => by cases hlive

/-- The requests of the calls that end a connection. -/
def closingRequests : List (Request Handle (Object T)) :=
  [.release .clientFd, .forget .clientFd, .check .clientFd]

/-- No descriptor is held. -/
def HoldsNothing (q : Private Handle (Object T)) : Prop := ∀ v object, q v ≠ .live object

theorem Holds.close {t : T} {sent : Bytes} {q : Private Handle (Object T)}
    (h : Holds t sent false q) :
    ∃ q', q.Reaches closingRequests q' ∧ HoldsNothing q' := by
  refine ⟨Function.update q .clientFd .nothing, ?_, ?_⟩
  · apply Private.Reaches.release h.socket
    apply Private.Reaches.forget (by simp)
    apply Private.Reaches.check (Function.update_self ..)
    rw [Function.update_idem]
    exact .nil
  · intro v object
    by_cases hsocket : v = .clientFd
    · rw [hsocket, Function.update_self]
      exact fun hlive => by cases hlive
    · rw [Function.update_of_ne hsocket]
      by_cases hfile : v = .staticFile
      · rw [hfile]
        exact fun hlive => absurd (h.file.mp ⟨object, hlive⟩) Bool.false_ne_true
      · exact h.rest v hsocket hfile object

def ThreadRun.Returned (run : ThreadRun) : Prop := ∃ c, run.outcome = .returned c

theorem ThreadRun.accounted (run : ThreadRun) :
    (run.Returned ∧ Ended run.log) ∨
      ¬ run.Returned ∧ (∀ e ∈ run.log, isClosing e = false) ∧
        ∃ isOpen, handleAfter run.log = some isOpen := by
  have h : Accounted run.defaultDocument run.rootFolder run.outcome :=
    handleConnection_accounted run.env run.reads run.defaultDocument run.rootFolder
  have hrunning : (∀ c, run.outcome ≠ .returned c) → Tracked run.outcome.conn →
      ¬ run.Returned ∧ (∀ e ∈ run.log, isClosing e = false) ∧
        ∃ isOpen, handleAfter run.log = some isOpen :=
    fun hne htracked => ⟨fun ⟨c, hc⟩ => hne c hc, htracked.running, _, htracked.handle⟩
  cases houtcome : run.outcome with
  | returned c =>
      rw [houtcome] at h
      refine .inl ⟨⟨c, houtcome⟩, ?_⟩
      rw [ThreadRun.log, houtcome]
      exact h
  | handshake c =>
      rw [houtcome] at h hrunning
      exact .inr (hrunning (fun _ hc => by cases hc) h.tracked)
  | loopHead c =>
      rw [houtcome] at h hrunning
      exact .inr (hrunning (fun _ hc => by cases hc) h.tracked)
  | crashed c =>
      rw [houtcome] at h hrunning
      exact .inr (hrunning (fun _ hc => by cases hc) h.1)

/-- A connection that has not returned holds its socket. -/
theorem ThreadRun.holds_of_running {run : ThreadRun}
    (hrunning : ∀ e ∈ run.log, isClosing e = false) {isOpen : Bool}
    (hhandle : handleAfter run.log = some isOpen) (t : T) :
    ∃ q, Private.Reaches (fun _ => .nothing) (run.requests t) q ∧
      Holds t (acceptedBytes run.log) isOpen q := by
  obtain ⟨q₀, hopening, hstart⟩ := run.opening_reaches t
  obtain ⟨q, hcalls, hholds⟩ := hstart.run run run.log hrunning hhandle
  exact ⟨q, hopening.append hcalls, hholds⟩

/-- A connection that has returned holds nothing, and gave its socket back last. -/
theorem ThreadRun.holds_of_ended {run : ThreadRun} (h : Ended run.log) (t : T) :
    ∃ before q q', run.requests t = before ++ closingRequests ∧
      Private.Reaches (fun _ => .nothing) before q ∧ Holds t (acceptedBytes run.log) false q ∧
      q.Reaches closingRequests q' ∧ HoldsNothing q' := by
  obtain ⟨before, hlog, hrunning, hhandle⟩ := h
  obtain ⟨q₀, hopening, hstart⟩ := run.opening_reaches t
  obtain ⟨q, hcalls, hholds⟩ := hstart.run run before hrunning hhandle
  obtain ⟨q', hclosing, hnothing⟩ := hholds.close
  have hbytes : acceptedBytes run.log = acceptedBytes before := by
    rw [hlog, Conversation.acceptedBytes_append]
    exact List.append_nil _
  refine ⟨run.opening t ++ run.requestsOfLog t before, q, q', ?_, hopening.append hcalls, ?_,
    hclosing, hnothing⟩
  · rw [ThreadRun.requests, hlog, ThreadRun.requestsOfLog, List.mapIdx_append, List.flatten_append,
      List.append_assoc]
    rfl
  · rw [hbytes]
    exact hholds

theorem ThreadRun.disciplined (run : ThreadRun) (t : T) :
    Disciplined (fun _ => .nothing) (run.requests t) := by
  obtain ⟨-, hended⟩ | ⟨-, hrunning, isOpen, hhandle⟩ := run.accounted
  · obtain ⟨before, q, q', hrequests, hbefore, -, hclosing, -⟩ := run.holds_of_ended hended t
    rw [hrequests]
    exact (hbefore.append hclosing).disciplined
  · obtain ⟨q, hreaches, -⟩ := run.holds_of_running hrunning hhandle t
    exact hreaches.disciplined

theorem HoldsNothing.update {q : Private Handle (Object T)} (h : HoldsNothing q) (v : Handle)
    {x : Holding (Object T)} (hx : ∀ object, x ≠ .live object) :
    HoldsNothing (Function.update q v x) := by
  intro v'
  by_cases hv : v' = v
  · rw [hv, Function.update_self]
    exact hx
  · rw [Function.update_of_ne hv]
    exact h v'

/-- What the main thread holds when no client is being accepted: the listening socket, or
nothing. -/
structure MainHolds (isListening : Bool) (q : Private Handle (Object Nat)) : Prop where
  listener : (∃ object, q .listenFd = .live object) ↔ isListening = true
  rest : ∀ v, v ≠ .listenFd → ∀ object, q v ≠ .live object

section Updates

variable {isListening : Bool} {q : Private Handle (Object Nat)} (h : MainHolds isListening q)
  {x : Holding (Object Nat)}
include h

theorem MainHolds.update {v : Handle} (hv : v ≠ .listenFd) (hx : ∀ object, x ≠ .live object) :
    MainHolds isListening (Function.update q v x) where
  listener := by
    rw [Function.update_of_ne hv.symm]
    exact h.listener
  rest := by
    intro v' hv'
    by_cases heq : v' = v
    · rw [heq, Function.update_self]
      exact hx
    · rw [Function.update_of_ne heq]
      exact h.rest v' hv'

theorem MainHolds.open (object : Object Nat) :
    MainHolds true (Function.update q .listenFd (.live object)) where
  listener := by simp
  rest := by
    intro v hv
    rw [Function.update_of_ne hv]
    exact h.rest v hv

theorem MainHolds.close (hx : ∀ object, x ≠ .live object) :
    MainHolds false (Function.update q .listenFd x) where
  listener := by simpa using hx
  rest := by
    intro v hv
    rw [Function.update_of_ne hv]
    exact h.rest v hv

end Updates

theorem MainHolds.silent {q : Private Handle (Object Nat)} (h : MainHolds false q) :
    ∀ object, q .listenFd ≠ .live object :=
  fun object hlive => Bool.false_ne_true (h.listener.mp ⟨object, hlive⟩)

/-- The main thread can come that far on its own. -/
def MainReaches (logOpens isListening : Bool) (log : List Call) : Prop :=
  ∃ q : Private Handle (Object Nat),
    Private.Reaches (fun _ => .nothing) (mainRequests logOpens 0 log) q ∧
      MainHolds isListening q

section MainThread

variable {logOpens : Bool}

theorem mainRequests_append (n : Nat) (first second : List Call) :
    mainRequests logOpens n (first ++ second) = mainRequests logOpens n first ++
      mainRequests logOpens (n + (created first).length) second := by
  induction first generalizing n with
  | nil => rfl
  | cons call first ih =>
      have hcount : created (call :: first) = created [call] ++ created first :=
        created_append [call] first
      rw [List.cons_append, mainRequests, mainRequests, ih, hcount, List.length_append,
        List.append_assoc, Nat.add_assoc]

/-- Calls that create no thread. -/
theorem mainRequests_flatMap {n : Nat} {log : List Call} (h : created log = []) :
    mainRequests logOpens n log = log.flatMap (callRequests logOpens n) := by
  induction log with
  | nil => rfl
  | cons call log ih =>
      obtain ⟨hcall, hlog⟩ := List.append_eq_nil_iff.mp ((created_append [call] log).symm.trans h)
      rw [mainRequests, hcall, List.length_nil, Nat.add_zero, ih hlog, List.flatMap_cons]

theorem MainReaches.append {isListening isListening' : Bool} {log calls : List Call}
    (h : MainReaches logOpens isListening log)
    (hcalls : ∀ n, ∀ q : Private Handle (Object Nat), MainHolds isListening q →
      ∃ q', q.Reaches (mainRequests logOpens n calls) q' ∧ MainHolds isListening' q') :
    MainReaches logOpens isListening' (log ++ calls) := by
  obtain ⟨q, hreaches, hholds⟩ := h
  obtain ⟨q', hreaches', hholds'⟩ := hcalls _ q hholds
  refine ⟨q', ?_, hholds'⟩
  rw [mainRequests_append]
  exact hreaches.append hreaches'

/-- Calls that leave the descriptors alone. -/
theorem MainReaches.grows {isListening : Bool} {kind : Call → Prop} {h h' : Host}
    (hreaches : MainReaches logOpens isListening h.log) (hgrows : Grows kind h h')
    (hkind : ∀ call, kind call → ∀ n, callRequests logOpens n call = []) :
    MainReaches logOpens isListening h'.log := by
  obtain ⟨calls, rfl, hcalls⟩ := hgrows
  apply hreaches.append
  intro n q hholds
  refine ⟨q, ?_, hholds⟩
  induction calls generalizing n with
  | nil => exact .nil
  | cons call calls ih =>
      obtain ⟨hcall, hcalls⟩ := List.forall_mem_cons.mp hcalls
      rw [mainRequests, hkind call hcall n, List.nil_append]
      exact ih hcalls _

theorem openStaticFile_isSome {fopen : Bytes → Option FileImage} {path rootFolder : Bytes}
    (h : 0 ≤ (openStaticFile fopen path rootFolder none).1) :
    (openStaticFile fopen path rootFolder none).2.isSome = true := by
  revert h
  rw [openStaticFile]
  split
  · decide
  · split
    · decide
    · exact fun _ => rfl

/-- The calls on the file of an accepted configuration. -/
theorem MainRun.confCalls_eq (run : MainRun) :
    confCalls run.env.files run.startup = .openConf true ::
      (List.replicate (run.startup.getlines.length + 1) .getline ++ [.closeConf]) := by
  have haccepted := run.accepted.run
  simp only [setServerStartupParams] at haccepted
  split at haccepted
  · cases haccepted
  · rename_i hsize
    simp only [confCalls, if_neg hsize, openStaticFile_isSome (Int.not_lt.mp hsize)]

theorem MainRun.confCalls_reaches (run : MainRun) :
    MainReaches logOpens false (confCalls run.env.files run.startup) := by
  refine ⟨Function.update (fun _ => .nothing) .confFile .stale, ?_, ?_⟩
  · have hrequests : mainRequests logOpens 0 (confCalls run.env.files run.startup) =
        (.acquire .confFile (.file .main (bytes "../default.conf") 0) ::
          (List.replicate (run.startup.getlines.length + 1) (.use .confFile id) ++
            [.release .confFile]) : List (Request Handle (Object Nat))) := by
      have hnone : created (confCalls run.env.files run.startup) = [] :=
        created_of_idle fun call hmem => (isStart_quiet (confCalls_start _ _ call hmem)).1
      rw [mainRequests_flatMap hnone, run.confCalls_eq]
      simp [callRequests, List.flatMap_append, List.flatMap_replicate]
    rw [hrequests]
    apply Private.Reaches.acquire (fun _ hlive => by cases hlive)
    apply Private.Reaches.append (.replicate_use (Function.update_self ..) _)
    apply Private.Reaches.release (Function.update_self ..)
    rw [Function.update_idem]
    exact .nil
  · have hnothing : MainHolds false (fun _ => .nothing : Private Handle (Object Nat)) :=
      ⟨by simp, fun _ _ _ hlive => by cases hlive⟩
    exact hnothing.update (by decide) fun _ hlive => by cases hlive

theorem startLog_reaches (env : MainEnv) {h : Host}
    (hreaches : MainReaches logOpens false h.log) :
    MainReaches logOpens false (startLog env h).log := by
  rw [startLog]
  split
  · exact hreaches.append fun _ q hholds => ⟨q, .nil, hholds⟩
  · have haccess : MainReaches logOpens false
        (h.emit (.access loggerFilename env.logExists)).log :=
      hreaches.append fun _ q hholds => ⟨q, .nil, hholds⟩
    apply haccess.append
    intro n q hholds
    obtain ⟨x, hx, hlogged⟩ := logRequests_reaches (hholds.rest .logFd (by decide)) .main
      logOpens loggerFilename (loggerHeader env.startTime)
    refine ⟨_, ?_, hholds.update (v := .logFd) (by decide) hx⟩
    rw [mainRequests, mainRequests, List.append_nil]
    exact hlogged

theorem serverTlsBaseInit_reaches {h : Host} (hreaches : MainReaches logOpens false h.log) :
    MainReaches logOpens false (serverTlsBaseInit h).log := by
  simp only [serverTlsBaseInit, Host.emit_log, List.append_assoc]
  apply hreaches.append
  intro n q hholds
  have hforgotten := hholds.close (x := .nothing) fun _ hlive => by cases hlive
  have hclient := hforgotten.rest .clientFd (by decide)
  exact ⟨_, .forget hholds.silent (.forget hclient .nil),
    hforgotten.update (by decide) fun _ hlive => by cases hlive⟩

theorem callRequests_isSetup {call : Call} (h : call.isSetup = true) (n : Nat) :
    callRequests logOpens n call = [] := by
  cases call with
  | init object =>
      cases object with
      | pkey => rfl
      | _ => cases h
  | netBind host port result =>
      have hresult : result ≠ 0 := by simpa [Call.isSetup] using h
      rw [callRequests, if_neg hresult]
  | _ => first | rfl | cases h

theorem MainReaches.bind {h : Host} (hreaches : MainReaches logOpens false h.log)
    (server : Server) : MainReaches logOpens true (h.bind server).log := by
  rw [Host.bind, Host.emit_log]
  apply hreaches.append
  intro n q hholds
  exact ⟨_, .acquire hholds.silent .nil, hholds.open .listener⟩

theorem MainHolds.useListener {q : Private Handle (Object Nat)} (h : MainHolds true q)
    {requests : List (Request Handle (Object Nat))} {q' : Private Handle (Object Nat)}
    (hrest : q.Reaches requests q') : q.Reaches (.use .listenFd id :: requests) q' := by
  obtain ⟨object, hlive⟩ := h.listener.mpr rfl
  exact (Private.Reaches.replicate_use hlive 1).append hrest

/-- A call of the loop by which no socket comes or goes. -/
theorem callRequests_isOther {call : Call} (h : call.isOther = true) (n : Nat)
    {q : Private Handle (Object Nat)} (hholds : MainHolds true q) :
    ∃ q', q.Reaches (callRequests logOpens n call) q' ∧ MainHolds true q' := by
  cases call with
  | netAccept result =>
      cases result with
      | none => exact ⟨q, hholds.useListener .nil, hholds⟩
      | some result =>
          have hresult : result ≠ 0 := bne_iff_ne.mp h
          rw [callRequests, if_neg hresult]
          have hclient := hholds.rest .clientFd (by decide)
          exact ⟨_, hholds.useListener (.forget hclient .nil),
            hholds.update (by decide) fun _ hlive => by cases hlive⟩
  | perror message => exact ⟨q, .nil, hholds⟩
  | printf message => exact ⟨q, .nil, hholds⟩
  | sigaction => exact ⟨q, .nil, hholds⟩
  | detachThread => exact ⟨q, .nil, hholds⟩
  | _ => cases h

/-- The main thread hands over every socket that it accepts. -/
theorem loopCalls_reaches {defaultDocument rootFolder : Bytes} {calls : List Call}
    (h : LoopCalls defaultDocument rootFolder calls) (n : Nat)
    {q : Private Handle (Object Nat)} (hholds : MainHolds true q) :
    ∃ q', q.Reaches (mainRequests logOpens n calls) q' ∧ MainHolds true q' := by
  induction h generalizing n q with
  | nil => exact ⟨q, .nil, hholds⟩
  | other hcall rest ih =>
      obtain ⟨q₁, hfirst, hholds₁⟩ := callRequests_isOther hcall n hholds
      obtain ⟨q₂, hrest, hholds₂⟩ := ih _ hholds₁
      exact ⟨q₂, hfirst.append hrest, hholds₂⟩
  | accepted message rest ih =>
      have hgiven : MainHolds true (Function.update q .clientFd .stale) :=
        hholds.update (by decide) fun _ hlive => by cases hlive
      obtain ⟨q', hrest, hholds'⟩ := ih (n + 0 + 0 + 1) hgiven
      refine ⟨q', ?_, hholds'⟩
      apply hholds.useListener
      apply Private.Reaches.acquire (hholds.rest .clientFd (by decide))
      apply Private.Reaches.give (Function.update_self ..)
      rw [Function.update_idem]
      exact hrest

theorem MainReaches.free {log : List Call} (hreaches : MainReaches logOpens true log)
    (server : Server) : MainReaches logOpens false (log ++ freeCalls server) := by
  have hrequests : ∀ n, mainRequests logOpens n (freeCalls server) =
      [.release .listenFd, .forget .listenFd] := by
    intro n
    have hstring : ∀ (setting : Setting) (isSet : Bool),
        (if isSet then [Call.freeString setting] else []).flatMap (callRequests logOpens n) =
          [] := by
      intro setting isSet
      cases isSet <;> rfl
    rw [mainRequests_flatMap (created_freeCalls server)]
    simp only [freeCalls, List.flatMap_append, hstring]
    rfl
  apply hreaches.append
  intro n q hholds
  obtain ⟨object, hlive⟩ := hholds.listener.mpr rfl
  rw [hrequests]
  refine ⟨_, .release hlive (.forget (by simp) .nil), ?_⟩
  rw [Function.update_idem]
  exact hholds.close fun _ hlive => by cases hlive

end MainThread

/-- The main thread does not misuse its descriptors, and gives back what it holds when
it exits. -/
theorem MainRun.reaches (run : MainRun) :
    ∃ isListening, MainReaches run.logOpens isListening run.log ∧
      ∀ status h, run.outcome = .exited status h → isListening = false := by
  have hbegun : MainReaches run.logOpens false (begun run.env run.startup).log :=
    serverTlsBaseInit_reaches (startLog_reaches run.env run.confCalls_reaches)
  rcases main_shape run.env run.accepted.run with
    ⟨host, -, hgrows, hmain⟩ | ⟨hthreadless, -⟩ | ⟨ready, host, hloops, hmain⟩
  · have hreaches := hbegun.grows hgrows fun _ hcall n => callRequests_isSetup hcall n
    refine ⟨false, ?_, fun _ _ _ => rfl⟩
    rw [MainRun.log, MainRun.outcome, hmain]
    exact hreaches
  · exact absurd run.threaded hthreadless
  · have hready := hbegun.grows hloops.prepared.grows
      fun _ hcall n => callRequests_isSetup hcall.1 n
    obtain ⟨defaultDocument, rootFolder, -, -, haccepts⟩ := hloops.accepts
    have hreaches : MainReaches run.logOpens true host.log := by
      obtain ⟨calls, rfl, hcalls⟩ := haccepts.calls
      exact (hready.bind run.startup.server).append
        fun n q hholds => loopCalls_reaches hcalls n hholds
    rcases hmain with ⟨-, hmain⟩ | ⟨-, hmain⟩
    · refine ⟨false, ?_, fun _ _ _ => rfl⟩
      rw [MainRun.log, MainRun.outcome, hmain, MainOutcome.log, freeServerParams_log]
      exact hreaches.free host.server
    · refine ⟨true, ?_, ?_⟩
      · rw [MainRun.log, MainRun.outcome, hmain]
        exact hreaches
      · intro status h hexited
        rw [MainRun.outcome, hmain] at hexited
        cases hexited

theorem MainRun.disciplined (run : MainRun) :
    Disciplined (fun _ => .nothing) run.requests := by
  obtain ⟨isListening, ⟨q, hreaches, -⟩, -⟩ := run.reaches
  exact hreaches.disciplined

theorem MainHolds.nothing {q : Private Handle (Object Nat)} (h : MainHolds false q) :
    HoldsNothing q := by
  intro v
  by_cases hv : v = .listenFd
  · rw [hv]
    exact h.silent
  · exact h.rest v hv

end Discipline

section Owners

variable {T : Type}

/-- What a variable of a thread is meant for. The main thread has a new socket until it
hands it over. -/
def Agent.Owns (a : Agent T) : Handle → Object T → Prop
  | .listenFd, .listener => a = .main
  | .clientFd, .connection t sent => a = .connection t ∨ a = .main ∧ sent = []
  | .confFile, .file opener _ _ => a = opener
  | .staticFile, .file opener _ _ => a = opener
  | .logFd, .logFile opener _ _ => a = opener
  | _, _ => False

theorem Agent.owns_send {t : T} {v : Handle} {object : Object T}
    (h : (Agent.connection t).Owns v object) (data : Bytes) :
    (Agent.connection t).Owns v (object.send data) := by
  cases object with
  | connection t' sent =>
      cases v with
      | clientFd =>
          rcases h with hown | ⟨hmain, -⟩
          · exact .inl hown
          · cases hmain
      | _ => exact h
  | _ => exact h

theorem Agent.owns_advance {a : Agent T} {v : Handle} {object : Object T} (h : a.Owns v object)
    (size : Nat) : a.Owns v (object.advance size) := by
  cases object with
  | file opener name position => cases v <;> exact h
  | _ => exact h

theorem Agent.owns_append {a : Agent T} {v : Handle} {object : Object T} (h : a.Owns v object)
    (message : Bytes) : a.Owns v (object.append message) := by
  cases object with
  | logFile opener filename written => cases v <;> exact h
  | _ => exact h

theorem logRequests_keeps (a : Agent T) (opened : Bool) (filename message : Bytes) :
    ∀ request ∈ logRequests a opened filename message, request.Keeps a.Owns := by
  cases opened with
  | false => exact List.forall_mem_nil _
  | true =>
      intro request hrequest
      simp only [logRequests, if_true, List.mem_cons, List.not_mem_nil, or_false] at hrequest
      rcases hrequest with rfl | rfl | rfl
      · exact rfl
      · exact fun _ howns => Agent.owns_append howns message
      · trivial

theorem eventRequests_keeps (t : T) (logOpens : Bool) (e : Event) :
    ∀ request ∈ eventRequests t logOpens e, request.Keeps (Agent.connection t).Owns := by
  have hone : ∀ {request : Request Handle (Object T)}, request.Keeps (Agent.connection t).Owns →
      ∀ request' ∈ [request], request'.Keeps (Agent.connection t).Owns :=
    fun h => List.forall_mem_singleton.mpr h
  cases e with
  | read result => exact hone fun _ howns => howns
  | logMessage filename message => exact logRequests_keeps _ logOpens filename message
  | fopen name opened =>
      cases opened with
      | true => exact hone rfl
      | false => exact hone trivial
  | fread offset slice => exact hone fun _ howns => Agent.owns_advance howns _
  | write site buffer result => exact hone fun _ howns => Agent.owns_send howns _
  | fclose => exact hone trivial
  | netFree => exact List.forall_mem_cons.mpr ⟨trivial, hone trivial⟩
  | closeNotify => exact hone trivial
  | _ => exact List.forall_mem_nil _

theorem ThreadRun.requests_keep (run : ThreadRun) (t : T) :
    ∀ request ∈ run.requests t, request.Keeps (Agent.connection t).Owns := by
  intro request hrequest
  rcases List.mem_append.mp hrequest with hopening | hcall
  · rcases List.mem_cons.mp hopening with rfl | hhandshake
    · exact .inl rfl
    · rw [List.eq_of_mem_replicate hhandshake]
      exact fun _ howns => howns
  · obtain ⟨requests, hrequests, hmem⟩ := List.mem_flatten.mp hcall
    obtain ⟨n, hn, rfl⟩ := List.mem_mapIdx.mp hrequests
    exact eventRequests_keeps t _ _ request hmem

theorem callRequests_keeps (logOpens : Bool) (n : Nat) (call : Call) :
    ∀ request ∈ callRequests logOpens n call, request.Keeps (Agent.main : Agent Nat).Owns := by
  have hone : ∀ {request : Request Handle (Object Nat)}, request.Keeps Agent.main.Owns →
      ∀ request' ∈ [request], request'.Keeps Agent.main.Owns :=
    fun h => List.forall_mem_singleton.mpr h
  cases call with
  | openConf opened =>
      cases opened with
      | true => exact hone rfl
      | false => exact List.forall_mem_nil _
  | getline => exact hone fun _ howns => howns
  | closeConf => exact hone trivial
  | logMessage filename message => exact logRequests_keeps _ logOpens filename message
  | init object =>
      cases object with
      | listenFd => exact hone trivial
      | clientFd => exact hone trivial
      | _ => exact List.forall_mem_nil _
  | netBind host port result =>
      rw [callRequests]
      split
      · exact hone rfl
      · exact List.forall_mem_nil _
  | netAccept result =>
      cases result with
      | none => exact hone fun _ howns => howns
      | some result =>
          rw [callRequests]
          split
          · exact List.forall_mem_cons.mpr ⟨fun _ howns => howns, hone (.inr ⟨rfl, rfl⟩)⟩
          · exact List.forall_mem_cons.mpr ⟨fun _ howns => howns, hone trivial⟩
  | createThread document root result =>
      rw [callRequests]
      split
      · exact hone trivial
      · exact List.forall_mem_nil _
  | free object =>
      cases object with
      | listenFd => exact List.forall_mem_cons.mpr ⟨trivial, hone trivial⟩
      | _ => exact List.forall_mem_nil _
  | _ => exact List.forall_mem_nil _

theorem mainRequests_keep (logOpens : Bool) (n : Nat) (log : List Call) :
    ∀ request ∈ mainRequests logOpens n log, request.Keeps (Agent.main : Agent Nat).Owns := by
  induction log generalizing n with
  | nil => exact List.forall_mem_nil _
  | cons call log ih =>
      intro request hrequest
      exact (List.mem_append.mp hrequest).elim (callRequests_keeps logOpens n call request)
        (ih _ request)

theorem MainRun.requests_keep (run : MainRun) :
    ∀ request ∈ run.requests, request.Keeps (Agent.main : Agent Nat).Owns :=
  mainRequests_keep _ _ _

end Owners

/-- Requests of the threads; connections are numbered in the order of their threads. -/
abbrev Trace := List (Entry (Agent Nat) Handle (Object Nat))

abbrev Table := Shared (Agent Nat) Handle (Object Nat)

section Threads

/-- All that a thread of the process asks of the system. -/
def requestsFrom (main : MainRun) (run : Nat → ThreadRun) :
    Agent Nat → List (Request Handle (Object Nat))
  | .main => main.requests
  | .connection t => (run t).requests t

theorem requestsFrom_disciplined (main : MainRun) (run : Nat → ThreadRun) (a : Agent Nat) :
    Disciplined (fun _ => .nothing) (requestsFrom main run a) := by
  cases a with
  | main => exact main.disciplined
  | connection t => exact (run t).disciplined t

theorem requestsFrom_keep (main : MainRun) (run : Nat → ThreadRun) (a : Agent Nat) :
    ∀ request ∈ requestsFrom main run a, request.Keeps a.Owns := by
  cases a with
  | main => exact main.requests_keep
  | connection t => exact (run t).requests_keep t

/-- A run of the threads, each as far as it has come, in any order of their requests
and with any choice of descriptors. -/
structure ProcessRun (main : MainRun) (run : Nat → ThreadRun)
    (trace : Trace) (s : Table) : Prop where
  steps : Shared.Steps .empty trace s
  partly : ∀ a, requestsOf a trace <+: requestsFrom main run a
  /-- A connection has the strings that its thread has been created with. -/
  started : ∀ t, requestsOf (.connection t) trace ≠ [] →
    (created main.log)[t]? = some ((run t).defaultDocument, (run t).rootFolder)

/-- The thread has made all its requests. -/
def Done (main : MainRun) (run : Nat → ThreadRun)
    (trace : Trace) (a : Agent Nat) : Prop :=
  requestsOf a trace = requestsFrom main run a

/-- The thread has come to its end. -/
def Finished (main : MainRun) (run : Nat → ThreadRun)
    (trace : Trace) : Agent Nat → Prop
  | .main => Done main run trace .main ∧ ∃ status h, main.outcome = .exited status h
  | .connection t => Done main run trace (.connection t) ∧ (run t).Returned

/-- What the threads see of the shared descriptors. -/
structure Isolated (main : MainRun) (run : Nat → ThreadRun)
    (trace : Trace) (s : Table) : Prop where
  /-- Nobody meets an object of another thread, whatever descriptors come back. -/
  own : ∀ entry ∈ trace, entry.Meets entry.agent.Owns
  /-- The socket of an open connection has taken what the connection has written. -/
  connected : ∀ t, Done main run trace (.connection t) → ¬ (run t).Returned →
    ∃ fd, s.held (.connection t, .clientFd) = some fd ∧
      s.table fd = some (.connection t (acceptedBytes (run t).log))
  /-- So has the socket that a connection closes. -/
  closed : ∀ t, Finished main run trace (.connection t) →
    ⟨.connection t, .release .clientFd,
      some (.connection t (acceptedBytes (run t).log))⟩ ∈ trace
  /-- What is open belongs to a thread that is still running. -/
  freed : ∀ fd object, s.table fd = some object →
    ∃ a v, s.held (a, v) = some fd ∧ ¬ Finished main run trace a

section Proof

variable {main : MainRun} {run : Nat → ThreadRun}
  {trace : Trace} {s : Table}

theorem ProcessRun.disciplined (h : ProcessRun main run trace s) (a : Agent Nat) :
    Disciplined (fun _ => .nothing) (requestsOf a trace) :=
  (requestsFrom_disciplined main run a).of_isPrefix (h.partly a)

theorem ProcessRun.keep (h : ProcessRun main run trace s) (a : Agent Nat) :
    ∀ request ∈ requestsOf a trace, request.Keeps a.Owns :=
  fun request hrequest => requestsFrom_keep main run a request ((h.partly a).subset hrequest)

/-- A thread that is done holds what it would hold alone. -/
theorem variablesOf_of_done {p : Agent Nat × Handle → Holding (Object Nat)} {a : Agent Nat}
    {q : Private Handle (Object Nat)} {answers : List (Option (Object Nat))}
    (hrun : Private.run (fun _ => .nothing) (requestsOf a trace) =
      some (answers, variablesOf p a))
    (hdone : Done main run trace a)
    (hreaches : Private.Reaches (fun _ => .nothing) (requestsFrom main run a) q) :
    variablesOf p a = q := by
  obtain ⟨answers', halone⟩ := hreaches
  rw [hdone, halone] at hrun
  exact (Prod.ext_iff.mp (Option.some.inj hrun)).2.symm

theorem holdsNothing_of_finished {a : Agent Nat} (h : Finished main run trace a) :
    Done main run trace a ∧ ∃ q, Private.Reaches (fun _ => .nothing) (requestsFrom main run a) q ∧
      HoldsNothing q := by
  cases a with
  | main =>
      obtain ⟨hdone, status, host, hexited⟩ := h
      obtain ⟨isListening, ⟨q, hreaches, hholds⟩, hend⟩ := main.reaches
      rw [hend status host hexited] at hholds
      exact ⟨hdone, q, hreaches, hholds.nothing⟩
  | connection t =>
      refine ⟨h.1, ?_⟩
      obtain ⟨-, hended⟩ | ⟨hrunning, -⟩ := (run t).accounted
      · obtain ⟨before, q, q', hrequests, hbefore, -, hclosing, hnothing⟩ :=
          (run t).holds_of_ended hended t
        refine ⟨q', ?_, hnothing⟩
        rw [requestsFrom, hrequests]
        exact hbefore.append hclosing
      · exact absurd h.2 hrunning

/-- A connection that has not returned has written to its own socket. -/
theorem ProcessRun.connected (h : ProcessRun main run trace s) {t : Nat}
    (hdone : Done main run trace (.connection t)) (hrunning : ¬ (run t).Returned) :
    ∃ fd, s.held (.connection t, .clientFd) = some fd ∧
      s.table fd = some (.connection t (acceptedBytes (run t).log)) := by
  obtain ⟨p, hrepresents, hruns⟩ := h.steps.isolated h.disciplined
  obtain ⟨hreturned, -⟩ | ⟨-, hall, isOpen, hhandle⟩ := (run t).accounted
  · exact absurd hreturned hrunning
  · obtain ⟨q, hreaches, hholds⟩ := (run t).holds_of_running hall hhandle t
    have hq := variablesOf_of_done (hruns _) hdone hreaches
    apply hrepresents.live
    rw [← hholds.socket, ← hq]
    rfl

/-- In any order of their requests, with any reuse of descriptors, each thread of the
server meets its own socket and its own files only. -/
theorem process_isolated (h : ProcessRun main run trace s) : Isolated main run trace s := by
  obtain ⟨p, hrepresents, hruns⟩ := h.steps.isolated h.disciplined
  refine ⟨h.steps.meets h.disciplined h.keep, fun _ => h.connected, ?_, ?_⟩
  · intro t hfinished
    obtain ⟨-, hended⟩ | ⟨hrunning, -⟩ := (run t).accounted
    · obtain ⟨before, q, -, hrequests, hbefore, hholds, -⟩ := (run t).holds_of_ended hended t
      have hmade : (entriesOf (.connection t) trace).map Entry.request =
          before ++ .release .clientFd :: [.forget .clientFd, .check .clientFd] :=
        hfinished.1.trans hrequests
      have hstep : q.step (.release .clientFd) =
          some (some (.connection t (acceptedBytes (run t).log)),
            Function.update q .clientFd .stale) := by
        rw [Private.step, hholds.socket]
      obtain ⟨entry, hentry, hrequest, hanswer⟩ :=
        Private.exists_entry hmade (hruns (.connection t)) hbefore hstep
      obtain ⟨hmem, hagent⟩ := List.mem_filter.mp hentry
      rw [← of_decide_eq_true hagent, ← hrequest, ← hanswer]
      exact hmem
    · exact absurd hfinished.2 hrunning
  · intro fd object htable
    obtain ⟨⟨a, v⟩, hlive, hheld⟩ := hrepresents.owned htable
    refine ⟨a, v, hheld, fun hfinished => ?_⟩
    obtain ⟨hdone, q, hreaches, hnothing⟩ := holdsNothing_of_finished hfinished
    have hq := variablesOf_of_done (hruns a) hdone hreaches
    apply hnothing v object
    rw [← hq]
    exact hlive

end Proof

end Threads

section Clients

variable {main : MainRun} {run : Nat → ThreadRun} {trace : Trace} {s : Table} {t : Nat}

/-- A connection on which files have been asked for, among the others. -/
theorem ProcessRun.replies (h : ProcessRun main run trace s) {defaultDocument rootFolder : Bytes}
    (hstrings : (run t).defaultDocument = defaultDocument ∧ (run t).rootFolder = rootFolder)
    {files : Bytes → Option FileImage} (henv : Steadfast (run t).env files)
    (hinit : serverTlsSessionInit (run t).env.sslSetup (run t).env.sslHandshake = some 0)
    (exchanges : List (Exchange files defaultDocument rootFolder))
    (hreads : (run t).reads = (exchanges.map fun e => e.request.piece).map .data)
    (hdone : Done main run trace (.connection t)) :
    ∃ fd sent, s.held (.connection t, .clientFd) = some fd ∧
      s.table fd = some (.connection t sent) ∧
      (readMessages sent).map (List.map Message.reply) = some (exchanges.map Exchange.reply) := by
  obtain ⟨c, hrun, hstream⟩ := connection_stream henv hinit exchanges
  have houtcome : (run t).outcome = .loopHead c := by
    rw [ThreadRun.outcome, hreads, hstrings.1, hstrings.2]
    exact hrun
  have hrunning : ¬ (run t).Returned := by
    rintro ⟨c', hc'⟩
    rw [houtcome] at hc'
    cases hc'
  obtain ⟨fd, hheld, htable⟩ := h.connected hdone hrunning
  refine ⟨fd, _, hheld, htable, ?_⟩
  rw [ThreadRun.log, houtcome, Outcome.conn, hstream]
  exact readMessages_exchanges exchanges

/-- A connection serves the files of the configuration. -/
theorem ProcessRun.strings (h : ProcessRun main run trace s) {values : Setting → Bytes}
    {lines : List ConfigLine} (hconfig : IsConfig values lines) {finalNewline : Bool}
    (hfiles : main.env.files = confFile (configText values lines finalNewline))
    (hstarted : requestsOf (.connection t) trace ≠ []) :
    (run t).defaultDocument = values .defaultDocument ∧
      (run t).rootFolder = values .rootFolder := by
  have haccepted := main.accepted.run
  rw [hfiles] at haccepted
  have hdocument : main.startup.server.defaultDocument = some (values .defaultDocument) :=
    holds_of_configText hconfig haccepted .defaultDocument
  have hroot : main.startup.server.rootFolder = some (values .rootFolder) :=
    holds_of_configText hconfig haccepted .rootFolder
  have hthread := List.mem_of_getElem? (h.started t hstarted)
  rw [MainRun.log, MainRun.outcome] at hthread
  rcases main_created main.env main.accepted.run with
    ⟨-, hnone⟩ | ⟨-, hnone⟩ | ⟨defaultDocument, rootFolder, hdocument', hroot', hcreated⟩
  · rw [hnone] at hthread
    cases hthread
  · rw [hnone] at hthread
    cases hthread
  · rw [hcreated] at hthread
    have hstrings := List.eq_of_mem_replicate hthread
    rw [hdocument] at hdocument'
    rw [hroot] at hroot'
    cases hdocument'
    cases hroot'
    exact Prod.mk.inj hstrings

/-- A server that has been started on a configuration text: in any order of the requests of
its threads, a client that asks for files of the configured root folder reads their replies,
in order and nothing else, off its own connection, once its thread has made its requests. -/
theorem server_replies {values : Setting → Bytes} {lines : List ConfigLine}
    (hconfig : IsConfig values lines) {finalNewline : Bool}
    (hfiles : main.env.files = confFile (configText values lines finalNewline))
    (h : ProcessRun main run trace s) {files : Bytes → Option FileImage}
    (henv : Steadfast (run t).env files)
    (hinit : serverTlsSessionInit (run t).env.sslSetup (run t).env.sslHandshake = some 0)
    (exchanges : List (Exchange files (values .defaultDocument) (values .rootFolder)))
    (hreads : (run t).reads = (exchanges.map fun e => e.request.piece).map .data)
    (hdone : Done main run trace (.connection t)) :
    ∃ fd sent, s.held (.connection t, .clientFd) = some fd ∧
      s.table fd = some (.connection t sent) ∧
      (readMessages sent).map (List.map Message.reply) = some (exchanges.map Exchange.reply) := by
  have hstarted : requestsOf (.connection t) trace ≠ [] := by
    rw [hdone, requestsFrom, ThreadRun.requests, ThreadRun.opening]
    simp
  exact h.replies (h.strings hconfig hfiles hstarted) henv hinit exchanges hreads hdone

end Clients

def helloValues : Setting → Bytes := Function.update defaultValues .rootFolder (bytes "root")

/-- The shipped configuration with another root folder. -/
def helloEnv : MainEnv :=
  { defaultEnv with files := confFile (configText helloValues (Setting.all.map .setting) true) }

theorem helloConfig : IsConfig helloValues (Setting.all.map .setting) := by
  refine isConfig_all fun setting => ?_
  cases setting with
  | rootFolder => exact ⟨by decide, by decide, by decide, ⟨by decide, by decide⟩⟩
  | _ => exact isValue_default _

theorem callRequests_own (logOpens : Bool) (n : Nat) {call : Call}
    (h : createdThread call = none) : (callRequests logOpens n call).all Request.isOwn = true := by
  cases call with
  | openConf opened => cases opened <;> rfl
  | logMessage filename message => cases logOpens <;> rfl
  | init object => cases object <;> rfl
  | netBind host port result =>
      rw [callRequests]
      split <;> rfl
  | netAccept result =>
      cases result with
      | none => rfl
      | some result =>
          rw [callRequests]
          split <;> rfl
  | createThread document root result =>
      have hresult : result ≠ 0 := by simpa [createdThread] using h
      rw [callRequests, if_neg hresult]
      rfl
  | free object => cases object <;> rfl
  | _ => rfl

theorem mainRequests_own (logOpens : Bool) (n : Nat) {log : List Call} (h : created log = []) :
    ∀ request ∈ mainRequests logOpens n log, request.isOwn = true := by
  rw [mainRequests_flatMap h]
  intro request hrequest
  obtain ⟨call, hcall, hmem⟩ := List.mem_flatMap.mp hrequest
  have hthread := List.filterMap_eq_nil_iff.mp h call hcall
  exact List.all_eq_true.mp (callRequests_own logOpens n hthread) request hmem

/-- The next client of the loop. -/
theorem loopCalls_next {defaultDocument rootFolder : Bytes} {calls : List Call}
    (h : LoopCalls defaultDocument rootFolder calls) (hcreated : created calls ≠ []) :
    ∃ before message rest, calls = before ++ .netAccept (some 0) :: .printf message ::
        .createThread defaultDocument rootFolder 0 :: rest ∧
      created before = [] ∧ LoopCalls defaultDocument rootFolder rest := by
  induction h with
  | nil => exact absurd rfl hcreated
  | @other c calls hcall rest ih =>
      have hnone : created [c] = [] := by
        cases c with
        | createThread document root result => cases hcall
        | _ => rfl
      have hsplit : ∀ more, created (c :: more) = created more := by
        intro more
        calc created (c :: more) = created [c] ++ created more := created_append [c] more
          _ = created more := by rw [hnone, List.nil_append]
      obtain ⟨before, message, more, rfl, hbefore, hmore⟩ := ih ((hsplit calls) ▸ hcreated)
      exact ⟨c :: before, message, more, rfl, (hsplit before).trans hbefore, hmore⟩
  | accepted message rest _ => exact ⟨[], message, _, rfl, rfl, rest⟩

/-- Its socket is accepted and handed over. -/
theorem mainRequests_next (logOpens : Bool) (n : Nat) {defaultDocument rootFolder : Bytes}
    {calls : List Call} (h : LoopCalls defaultDocument rootFolder calls)
    (hcreated : created calls ≠ []) :
    ∃ own rest, (∀ request ∈ own, request.isOwn = true) ∧
      LoopCalls defaultDocument rootFolder rest ∧
      created calls = (defaultDocument, rootFolder) :: created rest ∧
      mainRequests logOpens n calls = own ++ .acquire .clientFd (.connection n []) ::
        .give .clientFd :: mainRequests logOpens (n + 1) rest := by
  obtain ⟨before, message, rest, rfl, hbefore, hrest⟩ := loopCalls_next h hcreated
  refine ⟨mainRequests logOpens n before ++ [.use .listenFd id], rest, ?_, hrest, ?_, ?_⟩
  · intro request hmem
    rcases List.mem_append.mp hmem with hmem | hmem
    · exact mainRequests_own logOpens n hbefore request hmem
    · rw [List.mem_singleton.mp hmem]
      rfl
  · rw [created_append, hbefore]
    rfl
  · rw [mainRequests_append, hbefore, List.append_assoc]
    rfl

/-- A socket that is accepted and handed over. -/
def handedOver (t : Nat) : List (Request Handle (Object Nat)) :=
  [.acquire .clientFd (.connection t []), .give .clientFd]

/-- A main thread that hands two sockets over, with what it asks of the system. -/
theorem exists_helloMain : ∃ main : MainRun, main.env = helloEnv ∧
    created main.log = List.replicate 2 (bytes "index.html", bytes "root") ∧
    ∃ first second last, (∀ request ∈ first, request.isOwn = true) ∧
      (∀ request ∈ second, request.isOwn = true) ∧
      main.requests = first ++ handedOver 0 ++ (second ++ handedOver 1) ++ last := by
  have hlines : 10 ∈ (configText helloValues (Setting.all.map .setting) true).dropLast := by
    decide +kernel
  obtain ⟨startup, haccepted⟩ := configured_configText helloConfig
    (fun setting => List.mem_map_of_mem (mem_all setting)) hlines
  have hthreaded : ∀ accept ∈ helloEnv.accepts, accept.Threaded :=
    List.forall_mem_cons.mpr ⟨rfl, List.forall_mem_singleton.mpr rfl⟩
  have hdocument : startup.server.defaultDocument = some (bytes "index.html") :=
    holds_of_configText helloConfig haccepted.run .defaultDocument
  have hroot : startup.server.rootFolder = some (bytes "root") :=
    holds_of_configText helloConfig haccepted.run .rootFolder
  rcases main_shape helloEnv haccepted.run with
    ⟨host, hfailed, -⟩ | ⟨hthreadless, -⟩ | ⟨ready, host, hloops, ⟨hterminated, -⟩ | ⟨-, hmain⟩⟩
  · cases congrArg Prod.fst hfailed
  · exact absurd hthreaded hthreadless
  · cases hterminated
  · obtain ⟨defaultDocument, rootFolder, hdocument', hroot', haccepts⟩ := hloops.accepts
    obtain rfl := Option.some.inj (hdocument'.symm.trans hdocument)
    obtain rfl := Option.some.inj (hroot'.symm.trans hroot)
    have hready := created_of_idle hloops.prepared.ready.idle
    have hthreads := haccepts.threads
    rw [hready, List.nil_append] at hthreads
    refine ⟨⟨helloEnv, startup, haccepted, hthreaded, true⟩, rfl, ?_, ?_⟩
    · rw [MainRun.log, MainRun.outcome, hmain]
      exact hthreads
    · obtain ⟨calls, hhost, hcalls⟩ := haccepts.calls
      have hcreated : created calls = List.replicate 2 (bytes "index.html", bytes "root") := by
        rw [hhost, created_append, hready] at hthreads
        exact hthreads
      obtain ⟨first, more, hfirst, hmore, hcount, hrequests⟩ :=
        mainRequests_next true 0 hcalls (by rw [hcreated]; exact List.cons_ne_nil _ _)
      have hcount' : created more = [(bytes "index.html", bytes "root")] :=
        (List.cons.inj (hcount.symm.trans hcreated)).2
      obtain ⟨second, last, hsecond, -, -, hrequests'⟩ :=
        mainRequests_next true (0 + 1) hmore (by rw [hcount']; exact List.cons_ne_nil _ _)
      refine ⟨mainRequests true 0 (ready.bind startup.server).log ++ first, second,
        mainRequests true (0 + 1 + 1) last, ?_, hsecond, ?_⟩
      · intro request hmem
        exact (List.mem_append.mp hmem).elim (mainRequests_own true 0 hready request)
          (hfirst request)
      · have hlog : (main helloEnv).log = (ready.bind startup.server).log ++ calls := by
          rw [hmain, MainOutcome.log, hhost]
        have hall : mainRequests true 0 (main helloEnv).log =
            mainRequests true 0 (ready.bind startup.server).log ++ mainRequests true 0 calls := by
          rw [hlog, mainRequests_append, hready]
          rfl
        rw [MainRun.requests, MainRun.log, MainRun.outcome, hall, hrequests, hrequests']
        simp only [handedOver, List.append_assoc, List.cons_append, List.nil_append]

/-- The peer of the first connection closes it before it sends a request, the other
asks for two files. -/
def twoRuns (t : Nat) : ThreadRun where
  env := Env.steady helloFiles
  reads :=
    if t = 0 then [.code 0 (by decide)]
    else ([indexExchange, chunkedExchange].map fun e => e.request.piece).map .data
  defaultDocument := bytes "index.html"
  rootFolder := bytes "root"
  logOpens := fun _ => true

theorem eventRequests_own (t : Nat) (logOpens : Bool) (e : Event) :
    (eventRequests t logOpens e).all Request.isOwn = true := by
  cases e with
  | logMessage filename message => cases logOpens <;> rfl
  | fopen name opened => cases opened <;> rfl
  | _ => rfl

/-- A connection receives its socket and hands nothing over. -/
theorem ThreadRun.requests_own (run : ThreadRun) (t : Nat) :
    ∀ request ∈ (run.requests t).tail, request.isOwn = true := by
  intro request hrequest
  rcases List.mem_append.mp hrequest with hhandshake | hcall
  · rw [List.eq_of_mem_replicate hhandshake]
    rfl
  · obtain ⟨requests, hrequests, hmem⟩ := List.mem_flatten.mp hcall
    obtain ⟨n, hn, rfl⟩ := List.mem_mapIdx.mp hrequests
    exact List.all_eq_true.mp (eventRequests_own t _ _) request hmem

/-- What the threads of two connections have asked of the system. -/
structure Made (trace : Trace) (main first second : List (Request Handle (Object Nat))) :
    Prop where
  main_eq : requestsOf .main trace = main
  first_eq : requestsOf (.connection 0) trace = first
  second_eq : requestsOf (.connection 1) trace = second
  rest_eq : ∀ n, requestsOf (.connection (n + 2)) trace = []

theorem Made.partly {main : MainRun} {run : Nat → ThreadRun} {trace : Trace}
    {calls first second : List (Request Handle (Object Nat))} (h : Made trace calls first second)
    (hcalls : calls <+: main.requests) (hfirst : first <+: (run 0).requests 0)
    (hsecond : second <+: (run 1).requests 1) (a : Agent Nat) :
    requestsOf a trace <+: requestsFrom main run a := by
  cases a with
  | main => exact h.main_eq ▸ hcalls
  | connection t =>
      rcases t with - | - | n
      · exact h.first_eq ▸ hfirst
      · exact h.second_eq ▸ hsecond
      · rw [h.rest_eq n]
        exact List.nil_prefix

/-- The first connection, up to the end of its socket. -/
def closedSocket : List (Request Handle (Object Nat)) :=
  [.receive .clientFd (.connection 0 []), .use .clientFd id, .use .clientFd id,
    .release .clientFd]

theorem closedSocket_isPrefix : closedSocket <+: (twoRuns 0).requests 0 :=
  ⟨[.forget .clientFd, .check .clientFd], rfl⟩

/-- The main thread accepts two sockets. When the second one comes, the first has been closed
but not forgotten. The second connection goes on to its end. -/
theorem exists_twoConnections : ∃ main trace s, main.env = helloEnv ∧
    ProcessRun main twoRuns trace s ∧ Done main twoRuns trace (.connection 1) := by
  obtain ⟨main, henv, hcreated, first, second, last, hfirst, hsecond, hmain⟩ := exists_helloMain
  have hdisciplined : ∀ {trace : Trace},
      (∀ a, requestsOf a trace <+: requestsFrom main twoRuns a) →
      ∀ a, Disciplined (fun _ => .nothing) (requestsOf a trace) :=
    fun h a => (requestsFrom_disciplined main twoRuns a).of_isPrefix (h a)
  have hserved₂ : first ++ handedOver 0 ++ (second ++ handedOver 1) <+: main.requests :=
    ⟨last, hmain.symm⟩
  have hserved₁ : first ++ handedOver 0 <+: main.requests :=
    (List.prefix_append _ _).trans hserved₂
  have haccepted : ∀ {calls : List (Request Handle (Object Nat))} {t : Nat},
      calls ++ handedOver t <+: main.requests →
      Disciplined (fun _ => .nothing) (calls ++ [.acquire .clientFd (.connection t [])]) := by
    intro calls t hcalls
    refine main.disciplined.of_isPrefix (.trans ⟨[.give .clientFd], ?_⟩ hcalls)
    rw [List.append_assoc]
    rfl
  have hstart : Shared.Steps (.empty : Table) [] .empty := .nil
  have hmade : Made [] [] [] [] := ⟨rfl, rfl, rfl, fun _ => rfl⟩
  -- the first client
  obtain ⟨t₁, s₁, h₁, hmain₁, hone₁, hothers₁⟩ := hstart.extend_give
    (hdisciplined (hmade.partly List.nil_prefix List.nil_prefix List.nil_prefix))
    (a := .main) (b := .connection 0) (by decide) hfirst (v := .clientFd) .clientFd
    (o := .connection 0 []) (haccepted hserved₁)
  have hmade₁ : Made ([] ++ t₁) (first ++ handedOver 0)
      [.receive .clientFd (.connection 0 [])] [] :=
    ⟨hmain₁, hone₁, hothers₁ _ (by decide) (by decide), fun n => hothers₁ _ (by simp) (by simp)⟩
  -- its thread closes the socket
  obtain ⟨t₂, s₂, h₂, hone₂, hothers₂⟩ := h₁.extend (.connection 0)
    (List.all_eq_true.mp (rfl : closedSocket.tail.all Request.isOwn = true))
  have hmade₂ : Made ([] ++ t₁ ++ t₂) (first ++ handedOver 0) closedSocket [] :=
    ⟨(hothers₂ _ (by decide)).trans hmade₁.main_eq, by rw [hone₂, hmade₁.first_eq]; rfl,
      (hothers₂ _ (by decide)).trans hmade₁.second_eq,
      fun n => (hothers₂ _ (by simp)).trans (hmade₁.rest_eq n)⟩
  -- the second client
  have hcalls₂ : Disciplined (fun _ => .nothing) (requestsOf .main ([] ++ t₁ ++ t₂) ++
      (second ++ [.acquire .clientFd (.connection 1 [])])) := by
    rw [hmade₂.main_eq, ← List.append_assoc]
    exact haccepted (by rw [List.append_assoc]; exact hserved₂)
  obtain ⟨t₃, s₃, h₃, hmain₃, htwo₃, hothers₃⟩ := h₂.extend_give
    (hdisciplined (hmade₂.partly hserved₁ closedSocket_isPrefix List.nil_prefix))
    (a := .main) (b := .connection 1) (by decide) hsecond (v := .clientFd) .clientFd
    (o := .connection 1 []) hcalls₂
  have hmade₃ : Made ([] ++ t₁ ++ t₂ ++ t₃)
      (first ++ handedOver 0 ++ (second ++ handedOver 1)) closedSocket
      [.receive .clientFd (.connection 1 [])] :=
    ⟨by rw [hmain₃, hmade₂.main_eq]; rfl,
      (hothers₃ _ (by decide) (by decide)).trans hmade₂.first_eq,
      by rw [htwo₃, hmade₂.second_eq]; rfl,
      fun n => (hothers₃ _ (by simp) (by simp)).trans (hmade₂.rest_eq n)⟩
  -- the second thread works, while the first one has not forgotten its descriptor
  obtain ⟨t₄, s₄, h₄, htwo₄, hothers₄⟩ := h₃.extend (.connection 1) ((twoRuns 1).requests_own 1)
  have hmade₄ : Made ([] ++ t₁ ++ t₂ ++ t₃ ++ t₄)
      (first ++ handedOver 0 ++ (second ++ handedOver 1)) closedSocket
      ((twoRuns 1).requests 1) :=
    ⟨(hothers₄ _ (by decide)).trans hmade₃.main_eq,
      (hothers₄ _ (by decide)).trans hmade₃.first_eq, by rw [htwo₄, hmade₃.second_eq]; rfl,
      fun n => (hothers₄ _ (by simp)).trans (hmade₃.rest_eq n)⟩
  refine ⟨main, _, s₄, henv, ⟨h₄, hmade₄.partly hserved₂ closedSocket_isPrefix List.prefix_rfl,
    fun t ht => ?_⟩, hmade₄.second_eq⟩
  rcases t with - | - | n
  · exact congrArg (·[0]?) hcreated
  · exact congrArg (·[1]?) hcreated
  · exact absurd (hmade₄.rest_eq n) ht

theorem process_isolated_two : ∃ main trace s, main.env = helloEnv ∧
    ProcessRun main twoRuns trace s ∧ Done main twoRuns trace (.connection 1) ∧
    Isolated main twoRuns trace s := by
  obtain ⟨main, trace, s, henv, hrun, hdone⟩ := exists_twoConnections
  exact ⟨main, trace, s, henv, hrun, hdone, process_isolated hrun⟩

theorem server_replies_two :
    ∃ main trace s, main.env = helloEnv ∧ ProcessRun main twoRuns trace s ∧
      ∃ fd sent, s.held (.connection 1, .clientFd) = some fd ∧
        s.table fd = some (.connection 1 sent) ∧
        (readMessages sent).map (List.map Message.reply) =
          some ([indexExchange, chunkedExchange].map Exchange.reply) := by
  obtain ⟨main, trace, s, henv, hrun, hdone⟩ := exists_twoConnections
  have hfiles : main.env.files =
      confFile (configText helloValues (Setting.all.map .setting) true) := by
    rw [henv]
    rfl
  exact ⟨main, trace, s, henv, hrun, server_replies helloConfig hfiles hrun (t := 1)
    (Env.steady_steadfast helloFiles) rfl [indexExchange, chunkedExchange] rfl hdone⟩

end HttpsServ.ServerProcess
