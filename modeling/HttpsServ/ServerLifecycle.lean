import HttpsServ.ConfigurationMemory
import HttpsServ.ConfigurationText
import HttpsServ.ServerLog

/-!
# main.c and the start of the server

`main` reads the configuration, starts the log, sets up the TLS objects and the
listening socket, and then accepts connections until it is told to stop. Every result
of the calls on the way comes from the environment.
-/

namespace HttpsServ.ServerLifecycle

open ByteString Utility HttpParser Networking TlsAdapter Http ServerLog
open HttpsServ.Configuration hiding Holds
open ConfigurationText HeapProgram

/-- The objects of `struct ServerTls`. -/
inductive TlsObject
  | srvcert
  | conf
  | ctrDrbg
  | listenFd
  | clientFd
  | entropy
  | pkey
  deriving DecidableEq

inductive Call
  | openConf (opened : Bool)
  | getline
  | closeConf
  | printf (message : Bytes)
  | perror (message : Bytes)
  | access (filename : Bytes) (found : Bool)
  | logMessage (filename message : Bytes)
  /-- The `_init` function of the object's type. -/
  | init (object : TlsObject)
  | ctrDrbgSeed (result : Int)
  | x509CrtParseFile (path : Option Bytes) (result : Int)
  | pkParseKeyfile (path : Option Bytes) (result : Int)
  | sslConfOwnCert (result : Int)
  | sslConfCaChain
  | sslConfigDefaults (result : Int)
  | sslConfRng
  | sslConfDbg
  | netBind (host port : Bytes) (result : Int)
  | sigaction
  /-- `mbedtls_net_accept`, with its result once it has returned. -/
  | netAccept (result : Option Int)
  /-- `pthread_create`, with the strings of the new `ThreadData`. -/
  | createThread (defaultDocument rootFolder : Bytes) (result : Int)
  /-- `pthread_detach` of the thread that has just been created. -/
  | detachThread
  /-- The `_free` function of the object's type. -/
  | free (object : TlsObject)
  | freeString (setting : Setting)

inductive AcceptResult
  /-- A client, with the result of `pthread_create` for its thread. -/
  | accepted (peer : Address) (created : Int)
  | failed (code : Int) (nonzero : code ≠ 0)

/-- The outside world of the main thread. -/
structure MainEnv where
  files : Bytes → Option FileImage
  logExists : Bool
  startTime : LocalTime
  /-- The result of the next call on the TLS library. -/
  result : List Call → Int
  strerror : Int → Bytes
  errno : List Call → Int
  inetNtop : Address → Bytes
  accepts : List AcceptResult
  /-- `SIGINT` has come when these have been accepted. -/
  terminated : Bool

/-- `struct Server` with the calls made so far. -/
structure Host where
  server : Server
  log : List Call

def Host.emit (h : Host) (call : Call) : Host := { h with log := h.log ++ [call] }

@[simp] theorem Host.emit_log (h : Host) (call : Call) : (h.emit call).log = h.log ++ [call] := rfl

@[simp] theorem Host.emit_server (h : Host) (call : Call) : (h.emit call).server = h.server := rfl

def serverTlsBaseInit (h : Host) : Host :=
  let h := h.emit (.init .srvcert)
  let h := h.emit (.init .conf)
  let h := h.emit (.init .ctrDrbg)
  let h := h.emit (.init .listenFd)
  let h := h.emit (.init .clientFd)
  let h := h.emit (.init .entropy)
  h.emit (.init .pkey)

/-- `free` of a string of the configuration that has been set. -/
def Host.freeString (h : Host) (setting : Setting) (string : Option Bytes) : Host :=
  if string.isSome then h.emit (.freeString setting) else h

def serverTlsFree (h : Host) : Host :=
  let h := h.emit (.free .srvcert)
  let h := h.emit (.free .conf)
  let h := h.emit (.free .ctrDrbg)
  let h := h.emit (.free .listenFd)
  let h := h.emit (.free .pkey)
  let h := h.freeString .crtFilePath h.server.crtFilePath
  h.freeString .pkeyFilePath h.server.pkeyFilePath

/-- A call whose failure ends `LaunchTlsSocket`, with what follows when it succeeds. -/
def attempt (env : MainEnv) (call : Int → Call) (message : Int → Bytes)
    (next : Host → Int × Host) (h : Host) : Int × Host :=
  let ret := env.result h.log
  let h := h.emit (call ret)
  if ret ≠ 0 then (networkError, h.emit (.printf (message ret))) else next h

def launchTlsSocket (env : MainEnv) (h : Host) : Int × Host :=
  attempt env .ctrDrbgSeed (fun _ => bytes "Server failed generating drbg seed\n") (fun h =>
  attempt env (.x509CrtParseFile h.server.crtFilePath) (fun ret =>
    bytes "Server failed parse certificate " ++ env.strerror ret ++ bytes "\n") (fun h =>
  let h := h.emit (.init .pkey)
  attempt env (.pkParseKeyfile h.server.pkeyFilePath) (fun _ =>
    bytes "Server failed to parse private key\n") (fun h =>
  attempt env .sslConfOwnCert (fun _ =>
    bytes "Server failed to set own certificate and private key\n") (fun h =>
  let h := h.emit .sslConfCaChain
  attempt env .sslConfigDefaults (fun _ =>
    bytes "Server failed mbedtls_ssl_config_defaults\n") (fun h =>
  let h := (h.emit .sslConfRng).emit .sslConfDbg
  attempt env (.netBind h.server.sHost h.server.sPort) (fun _ =>
    bytes "Server failed mbedtls_net_bind returned\n") (fun h => (0, h)) h) h) h) h) h) h

def setupServer (env : MainEnv) (h : Host) : Int × Host :=
  let (ret, h) := launchTlsSocket env (serverTlsBaseInit h)
  if ret = networkError then (networkError, h) else (0, h)

def freeServerParams (h : Host) : Host :=
  let h := h.freeString .rootFolder h.server.rootFolder
  let h := h.freeString .defaultDocument h.server.defaultDocument
  serverTlsFree h

/-- The loop of `RunServer`; `none` when it copies a string that is `NULL`, and when it
detaches a thread that has not been created. -/
def acceptLoop (env : MainEnv) : List AcceptResult → SockaddrStorage → Host → Option Host
  | [], _, h => some h
  | .failed code _ :: accepts, theirAddr, h =>
      acceptLoop env accepts theirAddr
        ((h.emit (.netAccept (some code))).emit (.perror (bytes "server accept error")))
  | .accepted peer created :: accepts, theirAddr, h =>
      let h := h.emit (.netAccept (some 0))
      let (clientIp, theirAddr) := acceptPeer env.inetNtop theirAddr peer
      let h := h.emit (.printf (bytes "Server: got connection from: " ++ clientIp ++ bytes "\n"))
      match h.server.defaultDocument, h.server.rootFolder with
      | some defaultDocument, some rootFolder =>
          let h := h.emit (.createThread defaultDocument rootFolder created)
          -- the result is dropped: `server_thread` is unset, or the thread before, detached
          if created ≠ 0 then none else acceptLoop env accepts theirAddr (h.emit .detachThread)
      | _, _ => none

/-- `RunServer` up to the end of its loop. -/
def runServer (env : MainEnv) (h : Host) : Option Host :=
  let h := h.emit (.printf (bytes "waiting for connectins on: " ++ h.server.sHost ++ bytes ":" ++
    h.server.sPort ++ bytes "...\n"))
  acceptLoop env env.accepts .zero (h.emit .sigaction)

/-- The calls of `SetServerStartupParams` on its file. -/
def confCalls (files : Bytes → Option FileImage) (s : Startup) : List Call :=
  let (ret, confFile) := openStaticFile files (bytes "/default.conf") (bytes "..") none
  .openConf confFile.isSome ::
    if ret < 0 then if confFile.isSome then [.closeConf] else []
    else List.replicate (s.getlines.length + 1) .getline ++ [.closeConf]

/-- `LogInit`. -/
def startLog (env : MainEnv) (h : Host) : Host :=
  let h := h.emit (.access loggerFilename env.logExists)
  if env.logExists then h
  else h.emit (.logMessage loggerFilename (loggerHeader env.startTime))

/-- Where `main` is. -/
inductive MainOutcome
  /-- Something undefined has been done. -/
  | crashed
  /-- `mbedtls_net_accept` is waiting for a client. -/
  | accepting (h : Host)
  | exited (status : Int) (h : Host)

def MainOutcome.log : MainOutcome → List Call
  | .crashed => []
  | .accepting h | .exited _ h => h.log

def main (env : MainEnv) : MainOutcome :=
  match setServerStartupParams env.files {} with
  | none => .crashed
  | some (ret, s) =>
      let h : Host := { server := s.server, log := confCalls env.files s }
      if ret = otherError then
        .exited otherError
          (freeServerParams (h.emit (.printf (bytes "Cannot set server startup params\n"))))
      else
        let (ret, h) := setupServer env (startLog env h)
        if ret = networkError then .exited (env.errno h.log) h
        else
          match runServer env h with
          | none => .crashed
          | some h =>
              -- `RunServer` returns zero whenever it returns
              if env.terminated then .exited 0 (freeServerParams h)
              else .accepting (h.emit (.netAccept none))

/-- Some calls have been made, all of this kind. -/
def Grows (kind : Call → Prop) (h h' : Host) : Prop :=
  ∃ calls, h' = { h with log := h.log ++ calls } ∧ ∀ call ∈ calls, kind call

section Grows

variable {kind : Call → Prop} {h h' : Host}

theorem Grows.refl (kind : Call → Prop) (h : Host) : Grows kind h h :=
  ⟨[], by rw [List.append_nil], List.forall_mem_nil _⟩

theorem Grows.mono {kind' : Call → Prop} (hgrows : Grows kind h h')
    (hkind : ∀ call, kind call → kind' call) : Grows kind' h h' := by
  obtain ⟨calls, heq, hcalls⟩ := hgrows
  exact ⟨calls, heq, fun call hmem => hkind call (hcalls call hmem)⟩

theorem Grows.emit (hgrows : Grows kind h h') (call : Call) (hcall : kind call) :
    Grows kind h (h'.emit call) := by
  obtain ⟨calls, rfl, hcalls⟩ := hgrows
  refine ⟨calls ++ [call], by rw [Host.emit, List.append_assoc], ?_⟩
  intro call' hmem
  rcases List.mem_append.mp hmem with hmem | hmem
  · exact hcalls call' hmem
  · rw [List.mem_singleton.mp hmem]
    exact hcall

theorem Grows.trans {h'' : Host} (hfirst : Grows kind h h') (hsecond : Grows kind h' h'') :
    Grows kind h h'' := by
  obtain ⟨calls, rfl, hcalls⟩ := hfirst
  obtain ⟨more, rfl, hmore⟩ := hsecond
  refine ⟨calls ++ more, by rw [List.append_assoc], ?_⟩
  intro call hmem
  exact (List.mem_append.mp hmem).elim (hcalls call) (hmore call)

theorem Grows.server_eq (hgrows : Grows kind h h') : h'.server = h.server := by
  obtain ⟨calls, rfl, -⟩ := hgrows
  rfl

/-- What holds of all calls of a log and of the new ones. -/
theorem Grows.forall_mem {P : Call → Prop} (hgrows : Grows kind h h')
    (hkind : ∀ call, kind call → P call) (hlog : ∀ call ∈ h.log, P call) :
    ∀ call ∈ h'.log, P call := by
  obtain ⟨calls, rfl, hcalls⟩ := hgrows
  intro call hmem
  exact (List.mem_append.mp hmem).elim (hlog call) fun hnew => hkind call (hcalls call hnew)

end Grows

/-- A call of the set-up that reports an error. -/
def Call.failed : Call → Bool
  | .ctrDrbgSeed result => result != 0
  | .x509CrtParseFile _ result => result != 0
  | .pkParseKeyfile _ result => result != 0
  | .sslConfOwnCert result => result != 0
  | .sslConfigDefaults result => result != 0
  | .netBind _ _ result => result != 0
  | _ => false

/-- The calls of `LaunchTlsSocket` that leave no socket open. -/
def Call.isSetup : Call → Bool
  | .printf _ => true
  | .init .pkey => true
  | .ctrDrbgSeed _ => true
  | .x509CrtParseFile _ _ => true
  | .pkParseKeyfile _ _ => true
  | .sslConfOwnCert _ => true
  | .sslConfCaChain => true
  | .sslConfigDefaults _ => true
  | .sslConfRng => true
  | .sslConfDbg => true
  | .netBind _ _ result => result != 0
  | _ => false

def Call.succeeds (call : Call) : Prop := call.isSetup = true ∧ call.failed = false

/-- What `LaunchTlsSocket` has called before it binds its socket. -/
structure Prepared (h h' : Host) : Prop where
  grows : Grows Call.succeeds h h'
  certificate : .x509CrtParseFile h.server.crtFilePath 0 ∈ h'.log
  key : .pkParseKeyfile h.server.pkeyFilePath 0 ∈ h'.log

/-- The socket is bound last, and only when every step has succeeded. -/
def Launched (h : Host) (launched : Int × Host) : Prop :=
  (∃ h', Prepared h h' ∧ launched = (0, h'.emit (.netBind h.server.sHost h.server.sPort 0))) ∨
    launched.1 = networkError ∧ Grows (fun call => call.isSetup = true) h launched.2

theorem attempt_launched (env : MainEnv) {call : Int → Call} (message : Int → Bytes)
    {next : Host → Int × Host} {h h' : Host} (hgrows : Grows Call.succeeds h h')
    (hcall : ∀ ret, ret ≠ 0 → (call ret).isSetup = true)
    (hnext : Launched h (next (h'.emit (call 0)))) :
    Launched h (attempt env call message next h') := by
  rw [attempt]
  split
  · rename_i hfailed
    have hcalls : Grows (fun call => call.isSetup = true) h h' := hgrows.mono fun _ hcall => hcall.1
    exact .inr ⟨rfl, (hcalls.emit _ (hcall _ hfailed)).emit _ rfl⟩
  · rename_i hsuccess
    rw [not_not.mp hsuccess]
    exact hnext

theorem launchTlsSocket_launched (env : MainEnv) (h : Host) :
    Launched h (launchTlsSocket env h) := by
  have hstart := Grows.refl Call.succeeds h
  have hseed := hstart.emit (.ctrDrbgSeed 0) ⟨rfl, rfl⟩
  have hcertificate := hseed.emit (.x509CrtParseFile h.server.crtFilePath 0) ⟨rfl, rfl⟩
  have hinit := hcertificate.emit (.init .pkey) ⟨rfl, rfl⟩
  have hkey := hinit.emit (.pkParseKeyfile h.server.pkeyFilePath 0) ⟨rfl, rfl⟩
  have hown := hkey.emit (.sslConfOwnCert 0) ⟨rfl, rfl⟩
  have hchain := hown.emit .sslConfCaChain ⟨rfl, rfl⟩
  have hdefaults := hchain.emit (.sslConfigDefaults 0) ⟨rfl, rfl⟩
  have hready := (hdefaults.emit .sslConfRng ⟨rfl, rfl⟩).emit .sslConfDbg ⟨rfl, rfl⟩
  apply attempt_launched env _ hstart fun _ _ => rfl
  apply attempt_launched env _ hseed fun _ _ => rfl
  apply attempt_launched env _ hinit fun _ _ => rfl
  apply attempt_launched env _ hkey fun _ _ => rfl
  apply attempt_launched env _ hchain fun _ _ => rfl
  apply attempt_launched env _ hready fun ret hret => by simpa [Call.isSetup] using hret
  refine .inl ⟨_, ⟨hready, ?_, ?_⟩, rfl⟩
  · simp
  · simp

/-- The calls of `RunServer`, whose threads have these strings. -/
def Call.isServing (defaultDocument rootFolder : Bytes) : Call → Prop
  | .netAccept _ => True
  | .perror _ => True
  | .printf _ => True
  | .sigaction => True
  | .createThread defaultDocument' rootFolder' result =>
      defaultDocument' = defaultDocument ∧ rootFolder' = rootFolder ∧ result = 0
  | .detachThread => True
  | _ => False

def isAccepted : AcceptResult → Bool
  | .accepted _ _ => true
  | .failed _ _ => false

/-- There is a thread for the client. -/
def AcceptResult.Threaded : AcceptResult → Prop
  | .accepted _ created => created = 0
  | .failed _ _ => True

def createdThread : Call → Option (Bytes × Bytes)
  | .createThread defaultDocument rootFolder result =>
      if result = 0 then some (defaultDocument, rootFolder) else none
  | _ => none

/-- The strings of the threads that have been created. -/
def created (log : List Call) : List (Bytes × Bytes) := log.filterMap createdThread

theorem created_append (log calls : List Call) :
    created (log ++ calls) = created log ++ created calls :=
  List.filterMap_append

/-- A call of `RunServer` by which no socket comes or goes. -/
def Call.isOther : Call → Bool
  | .netAccept (some result) => result != 0
  | .netAccept none => true
  | .perror _ => true
  | .printf _ => true
  | .sigaction => true
  | .detachThread => true
  | _ => false

/-- The calls of `RunServer`: a socket that has been accepted goes to a thread before the
next one comes. -/
inductive LoopCalls (defaultDocument rootFolder : Bytes) : List Call → Prop
  | nil : LoopCalls defaultDocument rootFolder []
  | other {c : Call} {calls : List Call} (hcall : c.isOther = true)
      (rest : LoopCalls defaultDocument rootFolder calls) :
      LoopCalls defaultDocument rootFolder (c :: calls)
  | accepted {calls : List Call} (message : Bytes)
      (rest : LoopCalls defaultDocument rootFolder calls) :
      LoopCalls defaultDocument rootFolder (.netAccept (some 0) :: .printf message ::
        .createThread defaultDocument rootFolder 0 :: calls)

theorem LoopCalls.append {defaultDocument rootFolder : Bytes} {calls more : List Call}
    (h : LoopCalls defaultDocument rootFolder calls)
    (hmore : LoopCalls defaultDocument rootFolder more) :
    LoopCalls defaultDocument rootFolder (calls ++ more) := by
  induction h with
  | nil => exact hmore
  | other hcall _ ih => exact .other hcall ih
  | accepted message _ ih => exact .accepted message ih

theorem isOther_serving {call : Call} (h : call.isOther = true)
    (defaultDocument rootFolder : Bytes) : call.isServing defaultDocument rootFolder := by
  cases call with
  | _ => trivial

theorem LoopCalls.serving {defaultDocument rootFolder : Bytes} {calls : List Call}
    (h : LoopCalls defaultDocument rootFolder calls) :
    ∀ call ∈ calls, call.isServing defaultDocument rootFolder := by
  induction h with
  | nil => exact List.forall_mem_nil _
  | other hcall _ ih => exact List.forall_mem_cons.mpr ⟨isOther_serving hcall _ _, ih⟩
  | accepted message _ ih =>
      exact List.forall_mem_cons.mpr ⟨trivial, List.forall_mem_cons.mpr ⟨trivial,
        List.forall_mem_cons.mpr ⟨⟨rfl, rfl, rfl⟩, ih⟩⟩⟩

/-- A thread for each client that has been accepted. -/
structure Accepts (accepts : List AcceptResult) (defaultDocument rootFolder : Bytes)
    (h h' : Host) : Prop where
  calls : ∃ calls, h' = { h with log := h.log ++ calls } ∧
    LoopCalls defaultDocument rootFolder calls
  threads : created h'.log = created h.log ++
    List.replicate (accepts.countP isAccepted) (defaultDocument, rootFolder)

theorem Accepts.grows {accepts : List AcceptResult} {defaultDocument rootFolder : Bytes}
    {h h' : Host} (haccepts : Accepts accepts defaultDocument rootFolder h h') :
    Grows (Call.isServing defaultDocument rootFolder) h h' := by
  obtain ⟨calls, heq, hcalls⟩ := haccepts.calls
  exact ⟨calls, heq, hcalls.serving⟩

theorem Accepts.refl (defaultDocument rootFolder : Bytes) (h : Host) :
    Accepts [] defaultDocument rootFolder h h :=
  ⟨⟨[], by rw [List.append_nil], .nil⟩, (List.append_nil _).symm⟩

theorem Accepts.append {first rest : List AcceptResult} {defaultDocument rootFolder : Bytes}
    {h h' h'' : Host} (hfirst : Accepts first defaultDocument rootFolder h h')
    (hrest : Accepts rest defaultDocument rootFolder h' h'') :
    Accepts (first ++ rest) defaultDocument rootFolder h h'' := by
  constructor
  · obtain ⟨calls, rfl, hcalls⟩ := hfirst.calls
    obtain ⟨more, rfl, hmore⟩ := hrest.calls
    exact ⟨calls ++ more, by rw [List.append_assoc], hcalls.append hmore⟩
  · rw [hrest.threads, hfirst.threads, List.countP_append, List.append_assoc,
      List.replicate_append_replicate]

theorem Accepts.emit {accepts : List AcceptResult} {defaultDocument rootFolder : Bytes}
    {h h' : Host} (haccepts : Accepts accepts defaultDocument rootFolder h h') {c : Call}
    (hcall : c.isOther = true) :
    Accepts accepts defaultDocument rootFolder h (h'.emit c) := by
  constructor
  · obtain ⟨calls, rfl, hcalls⟩ := haccepts.calls
    exact ⟨calls ++ [c], by rw [Host.emit, List.append_assoc], hcalls.append (.other hcall .nil)⟩
  · have hthread : createdThread c = none := by
      cases c with
      | createThread document root result => cases hcall
      | _ => rfl
    rw [Host.emit_log, created_append, haccepts.threads, created, created,
      List.filterMap_cons_none hthread]
    exact List.append_nil _

section AcceptLoop

variable (env : MainEnv) {defaultDocument rootFolder : Bytes} {accepts : List AcceptResult}
  (theirAddr : SockaddrStorage) {h : Host}

theorem acceptLoop_failed (code : Int) (nonzero : code ≠ 0) :
    ∃ h', h'.server = h.server ∧ Accepts [.failed code nonzero] defaultDocument rootFolder h h' ∧
      acceptLoop env (.failed code nonzero :: accepts) theirAddr h =
        acceptLoop env accepts theirAddr h' := by
  have hcall : (Call.netAccept (some code)).isOther = true := bne_iff_ne.mpr nonzero
  refine ⟨(h.emit (.netAccept (some code))).emit (.perror (bytes "server accept error")), rfl,
    ⟨⟨_, ?_, .other hcall (.other (c := .perror (bytes "server accept error")) rfl .nil)⟩, ?_⟩,
    rfl⟩
  · rw [Host.emit, Host.emit, List.append_assoc]
    rfl
  · simp only [Host.emit_log, created_append, List.append_assoc]
    rfl

variable (hdocument : h.server.defaultDocument = some defaultDocument)
  (hroot : h.server.rootFolder = some rootFolder)
include hdocument hroot

theorem acceptLoop_accepted (peer : Address) :
    ∃ theirAddr' h', h'.server = h.server ∧
      Accepts [.accepted peer 0] defaultDocument rootFolder h h' ∧
      acceptLoop env (.accepted peer 0 :: accepts) theirAddr h =
        acceptLoop env accepts theirAddr' h' := by
  obtain ⟨clientIp, theirAddr', hpeer⟩ : ∃ clientIp theirAddr',
      acceptPeer env.inetNtop theirAddr peer = (clientIp, theirAddr') := ⟨_, _, rfl⟩
  refine ⟨theirAddr', (((h.emit (.netAccept (some 0))).emit (.printf
    (bytes "Server: got connection from: " ++ clientIp ++ bytes "\n"))).emit
    (.createThread defaultDocument rootFolder 0)).emit .detachThread, rfl, ⟨?_, ?_⟩, ?_⟩
  · refine ⟨_, ?_, .accepted (bytes "Server: got connection from: " ++ clientIp ++ bytes "\n")
      (.other (c := .detachThread) rfl .nil)⟩
    simp only [Host.emit, List.append_assoc]
    rfl
  · simp only [Host.emit_log, created_append, List.append_assoc]
    rfl
  · have hzero : ¬ (0 : Int) ≠ 0 := by decide
    simp only [acceptLoop, hpeer, Host.emit, hdocument, hroot, if_neg hzero]

theorem acceptLoop_threadless (peer : Address) {result : Int} (hresult : result ≠ 0) :
    acceptLoop env (.accepted peer result :: accepts) theirAddr h = none := by
  simp only [acceptLoop, Host.emit, hdocument, hroot, if_pos hresult]

/-- The loop accepts clients as long as their threads are created. -/
theorem acceptLoop_spec :
    ((∀ accept ∈ accepts, accept.Threaded) → ∃ h', acceptLoop env accepts theirAddr h = some h' ∧
        Accepts accepts defaultDocument rootFolder h h') ∧
      (¬ (∀ accept ∈ accepts, accept.Threaded) → acceptLoop env accepts theirAddr h = none) := by
  induction accepts generalizing theirAddr h with
  | nil =>
      refine ⟨fun _ => ⟨h, rfl, .refl _ _ h⟩, fun hnot => ?_⟩
      exact absurd (List.forall_mem_nil _) hnot
  | cons accept accepts ih =>
      have hpass : ∀ theirAddr' h', h'.server = h.server → accept.Threaded →
          Accepts [accept] defaultDocument rootFolder h h' →
          acceptLoop env (accept :: accepts) theirAddr h = acceptLoop env accepts theirAddr' h' →
          ((∀ accept' ∈ accept :: accepts, accept'.Threaded) →
            ∃ h'', acceptLoop env (accept :: accepts) theirAddr h = some h'' ∧
              Accepts (accept :: accepts) defaultDocument rootFolder h h'') ∧
          (¬ (∀ accept' ∈ accept :: accepts, accept'.Threaded) →
            acceptLoop env (accept :: accepts) theirAddr h = none) := by
        intro theirAddr' h' hserver hthreaded haccept hloop
        obtain ⟨hgood, hbad⟩ := ih theirAddr' (h := h') (hserver ▸ hdocument) (hserver ▸ hroot)
        rw [hloop, List.forall_mem_cons, and_iff_right hthreaded]
        refine ⟨fun hall => ?_, hbad⟩
        obtain ⟨h'', hrun, haccepts⟩ := hgood hall
        exact ⟨h'', hrun, haccept.append haccepts⟩
      cases accept with
      | failed code nonzero =>
          obtain ⟨h', hserver, haccept, hloop⟩ := acceptLoop_failed env theirAddr code nonzero
          exact hpass theirAddr h' hserver trivial haccept hloop
      | accepted peer result =>
          by_cases hresult : result = 0
          · subst hresult
            obtain ⟨theirAddr', h', hserver, haccept, hloop⟩ :=
              acceptLoop_accepted env theirAddr hdocument hroot peer
            exact hpass theirAddr' h' hserver rfl haccept hloop
          · refine ⟨fun hall => absurd (List.forall_mem_cons.mp hall).1 hresult, fun _ => ?_⟩
            exact acceptLoop_threadless env theirAddr hdocument hroot peer hresult

end AcceptLoop

/-- Lines that have been read have made their assignments. -/
theorem assigns_of_run {lines : List Bytes} {s s' : Startup}
    (h : lines.foldlM readSetting s = some s') : Assigns s s' (lines.flatMap assignments) := by
  obtain ⟨hgood, hbad⟩ := foldlM_readSetting_spec lines s
  by_cases hlines : ∀ line ∈ lines, Readable line
  · obtain ⟨s'', hrun, hassigns⟩ := hgood hlines
    obtain rfl := Option.some.inj (h.symm.trans hrun)
    exact hassigns
  · cases h.symm.trans (hbad hlines)

/-- Every setting of an accepted configuration has a value. -/
theorem holds_of_accepted {files : Bytes → Option FileImage} {hostServer : Server} {s : Startup}
    (h : setServerStartupParams files hostServer = some (0, s)) (setting : Setting) :
    ∃ value, Configuration.Holds s.server value setting := by
  simp only [setServerStartupParams] at h
  split at h
  · cases h
  · obtain ⟨s', hrun, heq⟩ := Option.map_eq_some_iff.mp h
    obtain ⟨hresult, rfl⟩ := Prod.ext_iff.mp heq
    have hassigns := assigns_of_run hrun
    have hmask : s'.integrityTest = 127 := by
      by_contra hmissing
      have hrefused : otherError = 0 := by simpa [hmissing] using hresult
      cases hrefused
    rw [hassigns.integrityTest_eq] at hmask
    obtain ⟨value, -, hholds⟩ := holds_of_assigned ((mask_eq_iff _).mp hmask setting) _
    exact ⟨value, hassigns.server_eq ▸ hholds⟩

/-- The settings of a configuration text that has been accepted are its values. -/
theorem holds_of_configText {values : Setting → Bytes} {lines : List ConfigLine}
    (hconfig : IsConfig values lines) {finalNewline : Bool} {hostServer : Server} {s : Startup}
    (h : setServerStartupParams (confFile (configText values lines finalNewline)) hostServer =
      some (0, s)) (setting : Setting) : Configuration.Holds s.server (values setting) setting := by
  obtain ⟨result, s', hrun, hread⟩ :=
    (setServerStartupParams_spec hostServer (configText values lines finalNewline)).1
      (readable_configText hconfig finalNewline)
  obtain ⟨rfl, rfl⟩ : result = 0 ∧ s' = s := by simpa [hrun] using h
  have hnamed : setting ∈ ((fileLines (configText values lines finalNewline)).flatMap
      assignments).map Prod.fst := by
    by_contra habsent
    have hrefused : (0 : Int) = otherError := hread.incomplete ⟨setting, habsent⟩
    cases hrefused
  obtain ⟨value, hmem, hholds⟩ := hread.held setting hnamed
  rwa [← ((assigned_configText hconfig finalNewline _).mp hmem).2]

/-- A configuration that is read without anything undefined, and what comes of it: if there
is a file it is empty or has more than one line, no `NULL` token is used, and no copy runs
over its field. -/
structure Configured (files : Bytes → Option FileImage) (result : Int) (s : Startup) :
    Prop where
  run : setServerStartupParams files {} = some (result, s)
  sound : ∀ image, files (bytes "../default.conf") = some image →
    image.size = image.content.length ∧ (image.content = [] ∨ 10 ∈ image.content.dropLast)
  fits : ConfigurationMemory.AllFit s

/-- A configuration text of more than one line with all settings is accepted. -/
theorem configured_configText {values : Setting → Bytes} {lines : List ConfigLine}
    (hconfig : IsConfig values lines) (hall : ∀ setting, .setting setting ∈ lines)
    {finalNewline : Bool} (hlines : 10 ∈ (configText values lines finalNewline).dropLast) :
    ∃ s, Configured (confFile (configText values lines finalNewline)) 0 s := by
  obtain ⟨result, s, hrun, hread⟩ :=
    (setServerStartupParams_spec {} (configText values lines finalNewline)).1
      (readable_configText hconfig finalNewline)
  obtain rfl : result = 0 := hread.complete fun setting =>
    (named_configText hconfig finalNewline setting).mpr (hall setting)
  refine ⟨s, hrun, ?_, ?_⟩
  · intro image himage
    rw [confFile, if_pos rfl] at himage
    cases himage
    exact ⟨rfl, .inr hlines⟩
  · intro entry hentry
    rw [hread.assigned_eq] at hentry
    obtain ⟨hline, hvalue⟩ := (assigned_configText hconfig finalNewline entry).mp hentry
    have hfits := (hconfig.settings entry.1 hline).fits
    rwa [← hvalue] at hfits

/-- The main thread in front of `LaunchTlsSocket`. -/
def begun (env : MainEnv) (s : Startup) : Host :=
  serverTlsBaseInit (startLog env { server := s.server, log := confCalls env.files s })

theorem begun_server (env : MainEnv) (s : Startup) : (begun env s).server = s.server := by
  simp only [begun, serverTlsBaseInit, Host.emit_server, startLog]
  split <;> rfl

/-- The socket of a configuration is open. -/
def Host.bind (h : Host) (server : Server) : Host :=
  h.emit (.netBind server.sHost server.sPort 0)

/-- The main thread in `RunServer`. -/
structure Loops (env : MainEnv) (s : Startup) (ready h : Host) : Prop where
  prepared : Prepared (begun env s) ready
  accepts : ∃ defaultDocument rootFolder, s.server.defaultDocument = some defaultDocument ∧
    s.server.rootFolder = some rootFolder ∧
    Accepts env.accepts defaultDocument rootFolder (ready.bind s.server) h
  threaded : ∀ accept ∈ env.accepts, accept.Threaded

theorem runServer_spec (env : MainEnv) {h : Host} {defaultDocument rootFolder : Bytes}
    (hdocument : h.server.defaultDocument = some defaultDocument)
    (hroot : h.server.rootFolder = some rootFolder) :
    ((∀ accept ∈ env.accepts, accept.Threaded) → ∃ h', runServer env h = some h' ∧
        Accepts env.accepts defaultDocument rootFolder h h') ∧
      (¬ (∀ accept ∈ env.accepts, accept.Threaded) → runServer env h = none) := by
  obtain ⟨message, hrun⟩ : ∃ message, runServer env h = acceptLoop env env.accepts .zero
      ((h.emit (.printf message)).emit .sigaction) := ⟨_, rfl⟩
  have hannounced := ((Accepts.refl defaultDocument rootFolder h).emit
    (c := .printf message) rfl).emit (c := .sigaction) rfl
  obtain ⟨hgood, hbad⟩ := @acceptLoop_spec env defaultDocument rootFolder env.accepts .zero
    ((h.emit (.printf message)).emit .sigaction) hdocument hroot
  refine ⟨fun hthreaded => ?_, fun hnot => hrun.trans (hbad hnot)⟩
  obtain ⟨h', hloop, haccepts⟩ := hgood hthreaded
  exact ⟨h', hrun.trans hloop, hannounced.append haccepts⟩

/-- On a configuration that it accepts, the main thread gives the set-up up, or it gets
through it and accepts clients as long as their threads are created. -/
theorem main_shape (env : MainEnv) {s : Startup}
    (h : setServerStartupParams env.files {} = some (0, s)) :
    (∃ host, launchTlsSocket env (begun env s) = (networkError, host) ∧
        Grows (fun call => call.isSetup = true) (begun env s) host ∧
        main env = .exited (env.errno host.log) host) ∨
      (¬ (∀ accept ∈ env.accepts, accept.Threaded) ∧ main env = .crashed) ∨
      ∃ ready host, Loops env s ready host ∧
        ((env.terminated = true ∧ main env = .exited 0 (freeServerParams host)) ∨
          env.terminated = false ∧ main env = .accepting host) := by
  have hzero : ¬ (0 : Int) = otherError := by decide
  have hnetwork : ¬ (0 : Int) = networkError := by decide
  have hlaunched := launchTlsSocket_launched env (begun env s)
  have hbegun : serverTlsBaseInit (startLog env ⟨s.server, confCalls env.files s⟩) =
      begun env s := rfl
  simp only [main, h, if_neg hzero, setupServer, hbegun]
  rcases hlaunched with ⟨ready, hprepared, hlaunch⟩ | ⟨hfailed, hgrows⟩
  · right
    rw [begun_server] at hlaunch
    obtain ⟨defaultDocument, hdocument⟩ := holds_of_accepted h .defaultDocument
    obtain ⟨rootFolder, hroot⟩ := holds_of_accepted h .rootFolder
    have hserver : (ready.bind s.server).server = s.server :=
      hprepared.grows.server_eq.trans (begun_server env s)
    obtain ⟨hgood, hbad⟩ := runServer_spec env (h := ready.bind s.server)
      (hserver ▸ hdocument) (hserver ▸ hroot)
    rw [Host.bind] at hgood hbad
    simp only [hlaunch, if_neg hnetwork]
    by_cases hthreaded : ∀ accept ∈ env.accepts, accept.Threaded
    · right
      obtain ⟨host, hrun, haccepts⟩ := hgood hthreaded
      simp only [hrun]
      cases hterminated : env.terminated with
      | true =>
          refine ⟨ready, host, ⟨hprepared, ⟨defaultDocument, rootFolder, hdocument, hroot, ?_⟩,
            hthreaded⟩, ?_⟩
          · exact haccepts
          · exact .inl ⟨rfl, rfl⟩
      | false =>
          refine ⟨ready, host.emit (.netAccept none), ⟨hprepared, ⟨defaultDocument, rootFolder,
            hdocument, hroot, ?_⟩, hthreaded⟩, ?_⟩
          · exact haccepts.emit (c := .netAccept none) rfl
          · exact .inr ⟨rfl, rfl⟩
    · left
      simp only [hbad hthreaded]
      exact ⟨hthreaded, trivial⟩
  · left
    refine ⟨_, Prod.ext hfailed rfl, hgrows, ?_⟩
    simp only [if_pos hfailed, if_true]

/-- The objects that a call works with. -/
def Call.uses : Call → List TlsObject
  | .ctrDrbgSeed _ => [.ctrDrbg, .entropy]
  | .x509CrtParseFile _ _ => [.srvcert]
  | .pkParseKeyfile _ _ => [.pkey, .ctrDrbg]
  | .sslConfOwnCert _ => [.conf, .srvcert, .pkey]
  | .sslConfCaChain => [.conf, .srvcert]
  | .sslConfigDefaults _ => [.conf]
  | .sslConfRng => [.conf, .ctrDrbg]
  | .sslConfDbg => [.conf]
  | .netBind _ _ _ => [.listenFd]
  | .netAccept _ => [.listenFd, .clientFd]
  -- a thread has the address of the configuration
  | .createThread _ _ _ => [.conf]
  | _ => []

/-- One call: what it works with is initialised, and so is what it frees. -/
def lifeStep (live : TlsObject → Bool) : Call → Option (TlsObject → Bool)
  | .init object => some (Function.update live object true)
  | .free object => if live object then some (Function.update live object false) else none
  | call => if call.uses.all live then some live else none

/-- The objects that are initialised after these calls; `none` for a misuse. -/
def lifeAfter (log : List Call) : Option (TlsObject → Bool) :=
  log.foldlM lifeStep fun _ => false

theorem lifeAfter_append (log calls : List Call) :
    lifeAfter (log ++ calls) = (lifeAfter log).bind fun live => calls.foldlM lifeStep live :=
  List.foldlM_append

/-- Calls that leave the objects as they are. -/
theorem foldlM_lifeStep_same {live : TlsObject → Bool} {calls : List Call}
    (h : ∀ call ∈ calls, lifeStep live call = some live) :
    calls.foldlM lifeStep live = some live := by
  induction calls with
  | nil => rfl
  | cons call calls ih =>
      obtain ⟨hcall, hcalls⟩ := List.forall_mem_cons.mp h
      rw [List.foldlM_cons, hcall]
      exact ih hcalls

/-- All objects are initialised. -/
def allLive : TlsObject → Bool := fun _ => true

theorem Grows.lifeAfter_eq {kind : Call → Prop} {h h' : Host} (hgrows : Grows kind h h')
    (hkind : ∀ call, kind call → lifeStep allLive call = some allLive)
    (hlive : lifeAfter h.log = some allLive) : lifeAfter h'.log = some allLive := by
  obtain ⟨calls, rfl, hcalls⟩ := hgrows
  rw [lifeAfter_append, hlive]
  exact foldlM_lifeStep_same fun call hmem => hkind call (hcalls call hmem)

theorem isSetup_live {call : Call} (h : call.isSetup = true) :
    lifeStep allLive call = some allLive := by
  cases call with
  | init object =>
      cases object with
      | pkey => exact congrArg some (Function.update_eq_self _ allLive)
      | _ => cases h
  | _ => first | rfl | cases h

theorem isServing_live {defaultDocument rootFolder : Bytes} {call : Call}
    (h : call.isServing defaultDocument rootFolder) : lifeStep allLive call = some allLive := by
  cases call with
  | netAccept result => rfl
  | perror message => rfl
  | printf message => rfl
  | sigaction => rfl
  | createThread document root result => rfl
  | detachThread => rfl
  | _ => exact h.elim

/-- The objects are all initialised before the set-up. -/
theorem serverTlsBaseInit_live {h : Host} {live : TlsObject → Bool}
    (hlive : lifeAfter h.log = some live) :
    lifeAfter (serverTlsBaseInit h).log = some allLive := by
  simp only [serverTlsBaseInit, Host.emit_log, List.append_assoc]
  rw [lifeAfter_append, hlive, Option.bind_some]
  refine congrArg some ?_
  ext object
  cases object <;> rfl

/-- The calls of `FreeServerParams`. -/
def freeCalls (server : Server) : List Call :=
  (if server.rootFolder.isSome then [.freeString .rootFolder] else []) ++
    (if server.defaultDocument.isSome then [.freeString .defaultDocument] else []) ++
    [.free .srvcert, .free .conf, .free .ctrDrbg, .free .listenFd, .free .pkey] ++
    (if server.crtFilePath.isSome then [.freeString .crtFilePath] else []) ++
    (if server.pkeyFilePath.isSome then [.freeString .pkeyFilePath] else [])

theorem Host.freeString_log (h : Host) (setting : Setting) (string : Option Bytes) :
    (h.freeString setting string).log =
      h.log ++ if string.isSome then [.freeString setting] else [] := by
  rw [Host.freeString]
  split <;> simp

theorem Host.freeString_server (h : Host) (setting : Setting) (string : Option Bytes) :
    (h.freeString setting string).server = h.server := by
  rw [Host.freeString]
  split <;> rfl

theorem freeServerParams_log (h : Host) :
    (freeServerParams h).log = h.log ++ freeCalls h.server := by
  simp only [freeServerParams, serverTlsFree, Host.freeString_log, Host.freeString_server,
    Host.emit_log, Host.emit_server, freeCalls, List.append_assoc, List.cons_append,
    List.nil_append]

/-- What `FreeServerParams` leaves initialised. -/
def leftLive : TlsObject → Bool
  | .clientFd => true
  | .entropy => true
  | _ => false

/-- What has been done before a client is accepted. -/
structure Complete (server : Server) (before : List Call) : Prop where
  succeeded : ∀ call ∈ before, call.failed = false
  certificate : .x509CrtParseFile server.crtFilePath 0 ∈ before
  key : .pkParseKeyfile server.pkeyFilePath 0 ∈ before
  bound : .netBind server.sHost server.sPort 0 ∈ before

/-- The calls of a server that accepts clients. -/
structure Serving (server : Server) (accepts : List AcceptResult) (log : List Call) : Prop where
  objects : lifeAfter log = some allLive
  complete : ∀ before result after, log = before ++ .netAccept result :: after →
    Complete server before
  threads : ∃ defaultDocument rootFolder, server.defaultDocument = some defaultDocument ∧
    server.rootFolder = some rootFolder ∧
    created log = List.replicate (accepts.countP isAccepted) (defaultDocument, rootFolder)
  threaded : ∀ accept ∈ accepts, accept.Threaded

/-- No client is accepted and nothing is given back. -/
def Call.isIdle : Call → Bool
  | .netAccept _ => false
  | .createThread _ _ _ => false
  | .detachThread => false
  | .free _ => false
  | .freeString _ => false
  | _ => true

/-- The main thread on a configuration that it accepts. -/
def Serves (server : Server) (env : MainEnv) : MainOutcome → Prop
  | .crashed => ∃ accept ∈ env.accepts, ¬ accept.Threaded
  | .accepting h => h.server = server ∧ env.terminated = false ∧ Serving server env.accepts h.log
  | .exited status h => h.server = server ∧
      ((status = 0 ∧ env.terminated = true ∧ ∃ log, Serving server env.accepts log ∧
          h.log = log ++ freeCalls server ∧ lifeAfter h.log = some leftLive) ∨
        (status = env.errno h.log ∧ lifeAfter h.log = some allLive ∧
          ∀ call ∈ h.log, call.isIdle = true))

/-- Whoever accepts a client has a complete set-up behind it. -/
theorem complete_of_split {server : Server} {front back before after : List Call}
    {result : Option Int} (hcomplete : Complete server front)
    (hfront : ∀ call ∈ front, call.isIdle = true) (hback : ∀ call ∈ back, call.failed = false)
    (hsplit : front ++ back = before ++ .netAccept result :: after) : Complete server before := by
  have hextends : ∀ between, before = front ++ between →
      (∀ call ∈ between, call.failed = false) → Complete server before := by
    rintro between rfl hbetween
    refine ⟨?_, List.mem_append_left _ hcomplete.certificate,
      List.mem_append_left _ hcomplete.key, List.mem_append_left _ hcomplete.bound⟩
    intro call hmem
    exact (List.mem_append.mp hmem).elim (hcomplete.succeeded call) (hbetween call)
  rcases List.append_eq_append_iff.mp hsplit with
    ⟨between, hbefore, hrest⟩ | ⟨between, hrest, hafter⟩
  · apply hextends between hbefore
    intro call hmem
    exact hback call (hrest ▸ List.mem_append_left _ hmem)
  · cases between with
    | nil => exact hextends [] (by rw [hrest, List.append_nil, List.append_nil]) (by simp)
    | cons call between =>
        obtain rfl := (List.cons.inj hafter).1
        have hidle := hfront (.netAccept result)
          (hrest ▸ List.mem_append_right _ List.mem_cons_self)
        cases hidle

def Call.isQuiet (call : Call) : Prop := call.isIdle = true ∧ call.failed = false

theorem isSetup_idle {call : Call} (h : call.isSetup = true) : call.isIdle = true := by
  cases call with
  | _ => first | rfl | cases h

theorem isSucceeds_quiet {call : Call} (h : call.succeeds) : call.isQuiet :=
  ⟨isSetup_idle h.1, h.2⟩

/-- The calls before the objects are initialised. -/
def Call.isStart : Call → Bool
  | .openConf _ => true
  | .getline => true
  | .closeConf => true
  | .printf _ => true
  | .access _ _ => true
  | .logMessage _ _ => true
  | _ => false

theorem isStart_same {call : Call} (h : call.isStart = true) (live : TlsObject → Bool) :
    lifeStep live call = some live := by
  cases call with
  | _ => first | rfl | cases h

theorem isStart_quiet {call : Call} (h : call.isStart = true) : call.isQuiet := by
  cases call with
  | _ => first | exact ⟨rfl, rfl⟩ | cases h

theorem confCalls_start (files : Bytes → Option FileImage) (s : Startup) :
    ∀ call ∈ confCalls files s, call.isStart = true := by
  simp only [confCalls]
  refine List.forall_mem_cons.mpr ⟨rfl, ?_⟩
  split
  · split
    · exact List.forall_mem_singleton.mpr rfl
    · exact List.forall_mem_nil _
  · intro call hmem
    rcases List.mem_append.mp hmem with hmem | hmem
    · rw [List.eq_of_mem_replicate hmem]
      rfl
    · rw [List.mem_singleton.mp hmem]
      rfl

theorem startLog_grows (env : MainEnv) (h : Host) :
    Grows (fun call => call.isStart = true) h (startLog env h) := by
  have haccess := (Grows.refl (fun call => call.isStart = true) h).emit
    (.access loggerFilename env.logExists) rfl
  rw [startLog]
  split
  · exact haccess
  · exact haccess.emit _ rfl

theorem serverTlsBaseInit_grows (h : Host) : Grows Call.isQuiet h (serverTlsBaseInit h) :=
  (((((((Grows.refl Call.isQuiet h).emit _ ⟨rfl, rfl⟩).emit _ ⟨rfl, rfl⟩).emit _ ⟨rfl, rfl⟩).emit
    _ ⟨rfl, rfl⟩).emit _ ⟨rfl, rfl⟩).emit _ ⟨rfl, rfl⟩).emit _ ⟨rfl, rfl⟩

theorem isServing_succeeds {defaultDocument rootFolder : Bytes} {call : Call}
    (h : call.isServing defaultDocument rootFolder) : call.failed = false := by
  cases call with
  | _ => first | rfl | exact h.elim

theorem created_of_idle {log : List Call} (h : ∀ call ∈ log, call.isIdle = true) :
    created log = [] := by
  apply List.filterMap_eq_nil_iff.mpr
  intro call hmem
  have hidle := h call hmem
  cases call with
  | createThread document root result => cases hidle
  | _ => rfl

/-- The calls in front of the set-up. -/
structure Begun (h : Host) : Prop where
  quiet : ∀ call ∈ h.log, call.isQuiet
  objects : lifeAfter h.log = some allLive

theorem begun_begun (env : MainEnv) (s : Startup) : Begun (begun env s) := by
  have hstart : ∀ call ∈ (startLog env ⟨s.server, confCalls env.files s⟩).log,
      call.isStart = true :=
    (startLog_grows env _).forall_mem (fun _ hcall => hcall) (confCalls_start env.files s)
  constructor
  · exact (serverTlsBaseInit_grows _).forall_mem (fun _ hcall => hcall)
      fun call hmem => isStart_quiet (hstart call hmem)
  · exact serverTlsBaseInit_live
      (foldlM_lifeStep_same fun call hmem => isStart_same (hstart call hmem) _)

/-- A socket is open, and no client has been accepted. -/
structure Ready (server : Server) (h : Host) : Prop where
  objects : lifeAfter h.log = some allLive
  idle : ∀ call ∈ h.log, call.isIdle = true
  complete : Complete server h.log

theorem Prepared.ready {env : MainEnv} {s : Startup} {ready : Host}
    (h : Prepared (begun env s) ready) : Ready s.server (ready.bind s.server) := by
  have hbegun := begun_begun env s
  have hquiet := h.grows.forall_mem (fun _ => isSucceeds_quiet) hbegun.quiet
  have hbound : ∀ call ∈ (ready.bind s.server).log, call.isQuiet :=
    ((Grows.refl Call.isQuiet ready).emit _ ⟨rfl, rfl⟩).forall_mem (fun _ hcall => hcall) hquiet
  have hcertificate := h.certificate
  have hkey := h.key
  rw [begun_server] at hcertificate hkey
  refine ⟨?_, fun call hmem => (hbound call hmem).1, fun call hmem => (hbound call hmem).2,
    ?_, ?_, ?_⟩
  · have hlive := h.grows.lifeAfter_eq (fun _ hcall => isSetup_live hcall.1) hbegun.objects
    rw [Host.bind, Host.emit_log, lifeAfter_append, hlive]
    rfl
  · exact List.mem_append_left _ hcertificate
  · exact List.mem_append_left _ hkey
  · exact List.mem_append_right _ List.mem_cons_self

theorem Loops.serving {env : MainEnv} {s : Startup} {ready h : Host}
    (hloops : Loops env s ready h) : Serving s.server env.accepts h.log := by
  obtain ⟨hobjects, hidle, hcomplete⟩ := hloops.prepared.ready
  obtain ⟨defaultDocument, rootFolder, hdocument, hroot, haccepts⟩ := hloops.accepts
  have hgrows := haccepts.grows
  refine ⟨hgrows.lifeAfter_eq (fun _ => isServing_live) hobjects, ?_,
    ⟨defaultDocument, rootFolder, hdocument, hroot, ?_⟩, hloops.threaded⟩
  · intro before result after hsplit
    obtain ⟨calls, hcalls, hserving⟩ := hgrows
    rw [hcalls] at hsplit
    exact complete_of_split hcomplete hidle (fun call hmem => isServing_succeeds (hserving call hmem))
      hsplit
  · rw [haccepts.threads, created_of_idle hidle, List.nil_append]

theorem Loops.server_eq {env : MainEnv} {s : Startup} {ready h : Host}
    (hloops : Loops env s ready h) : h.server = s.server := by
  obtain ⟨defaultDocument, rootFolder, -, -, haccepts⟩ := hloops.accepts
  calc h.server = (ready.bind s.server).server := haccepts.grows.server_eq
    _ = (begun env s).server := hloops.prepared.grows.server_eq
    _ = s.server := begun_server env s

theorem created_freeCalls (server : Server) : created (freeCalls server) = [] := by
  have hstring : ∀ (setting : Setting) (isSet : Bool),
      created (if isSet then [.freeString setting] else []) = [] := by
    intro setting isSet
    cases isSet <;> rfl
  simp only [freeCalls, created_append, hstring]
  rfl

/-- The threads of the main thread, wherever it is. -/
theorem main_created (env : MainEnv) {s : Startup}
    (h : setServerStartupParams env.files {} = some (0, s)) :
    ((launchTlsSocket env (begun env s)).1 = networkError ∧ created (main env).log = []) ∨
      (¬ (∀ accept ∈ env.accepts, accept.Threaded) ∧ created (main env).log = []) ∨
      ∃ defaultDocument rootFolder, s.server.defaultDocument = some defaultDocument ∧
        s.server.rootFolder = some rootFolder ∧ created (main env).log =
          List.replicate (env.accepts.countP isAccepted) (defaultDocument, rootFolder) := by
  rcases main_shape env h with ⟨host, hlaunch, hgrows, hmain⟩ | ⟨hthreadless, hmain⟩ |
    ⟨ready, host, hloops, hmain⟩
  · left
    refine ⟨by rw [hlaunch], ?_⟩
    rw [hmain]
    exact created_of_idle (hgrows.forall_mem (fun _ => isSetup_idle)
      fun call hmem => ((begun_begun env s).quiet call hmem).1)
  · right
    left
    rw [hmain]
    exact ⟨hthreadless, rfl⟩
  · right
    right
    obtain ⟨defaultDocument, rootFolder, hdocument, hroot, hthreads⟩ := hloops.serving.threads
    refine ⟨defaultDocument, rootFolder, hdocument, hroot, ?_⟩
    rcases hmain with ⟨-, hmain⟩ | ⟨-, hmain⟩
    · rw [hmain, MainOutcome.log, freeServerParams_log, created_append, created_freeCalls,
        List.append_nil]
      exact hthreads
    · rw [hmain]
      exact hthreads

/-- The shipped configuration, a library that reports no error, and two clients. -/
def defaultEnv : MainEnv where
  files := confFile defaultConf
  logExists := true
  startTime := firstDay
  result := fun _ => 0
  strerror := fun _ => []
  errno := fun _ => 0
  inetNtop := fun _ => []
  accepts := [.accepted (.ipv4 [127, 0, 0, 1] rfl) 0, .accepted (.ipv4 [127, 0, 0, 1] rfl) 0]
  terminated := false

end HttpsServ.ServerLifecycle
