import AsmProto.Common

set_option autoImplicit false

/-! # Messages over TLS

`read_one_message` and `write_all`, of which `tls_server.cpp` and `tls_client.cpp` have a copy each.
OpenSSL is the environment: `incoming` is what the peer's TLS records deliver, one `SSL_read` never
returning bytes of two of them, and `outcomes` is what the calls of `SSL_write` will do. A call that
writes to a connection the peer has reset may also raise SIGPIPE, which the programs leave at its
default: the process ends there, whatever `catch` blocks are open. -/

namespace AsmProto

/-- What `SSL_get_error` and `ERR_get_error` report after a call that failed. -/
structure SslError where
  sslError : ℕ
  opensslError : ℕ
deriving Repr, DecidableEq

/-- The exception of `ssl_expect_positive`. -/
def SslError.toException (error : SslError) (action : String) : StdException :=
  .asmError (action ++ " failed: ssl_error=" ++ toString error.sslError
    ++ ", openssl_error=" ++ toString error.opensslError)

/-- What ends a procedure that does not return: an exception, or the signal that ends the process. -/
inductive Fault where
  | exception (ex : StdException)
  | sigpipe

/-- A call of OpenSSL that does not succeed: it fails, or something it writes raises SIGPIPE. -/
inductive SslFailure where
  | reports (error : SslError)
  | raisesSigpipe
deriving Repr, DecidableEq

/-- `ssl_expect_positive` after such a call, if there is an after. -/
def SslFailure.toFault (action : String) : SslFailure → Fault
  | .reports error => .exception (error.toException action)
  | .raisesSigpipe => .sigpipe

/-- One call of `SSL_write`: it takes this many bytes, or all it is given if that is less, or it
    fails. -/
inductive WriteOutcome where
  | accepts (count : ℕ)
  | fails (failure : SslFailure)
deriving Repr, DecidableEq

/-! ## Procedures that a signal can end -/

section Faults

variable {σ α : Type}

/-- A pure function of the program. -/
def throwing (x : Except StdException α) : EStateM Fault σ α :=
  EStateM.liftExcept (x.mapError .exception)

@[simp] theorem run_throwing_ok (a : α) (s : σ) :
    (throwing (.ok a : Except StdException α)).run s = .ok a s := rfl

@[simp] theorem run_throwing_error (ex : StdException) (s : σ) :
    (throwing (.error ex : Except StdException α)).run s = .error (.exception ex) s := rfl

/-- `catch (const std::exception& ex)`. -/
def catchException (x : EStateM Fault σ α) (handler : StdException → EStateM Fault σ α) :
    EStateM Fault σ α :=
  tryCatch x fun
    | .exception ex => handler ex
    | .sigpipe => throw .sigpipe

theorem run_catchException_of_ok {x : EStateM Fault σ α} {s s' : σ} {a : α} (h : x.run s = .ok a s')
    (handler : StdException → EStateM Fault σ α) : (catchException x handler).run s = .ok a s' := by
  rw [catchException, EStateM.run_try, h]

theorem run_catchException_of_exception {x : EStateM Fault σ α} {s s' : σ} {ex : StdException}
    (h : x.run s = .error (.exception ex) s') (handler : StdException → EStateM Fault σ α) :
    (catchException x handler).run s = (handler ex).run s' := by
  rw [catchException, EStateM.run_try, h]

theorem run_catchException_of_sigpipe {x : EStateM Fault σ α} {s s' : σ}
    (h : x.run s = .error .sigpipe s') (handler : StdException → EStateM Fault σ α) :
    (catchException x handler).run s = .error .sigpipe s' := by
  rw [catchException, EStateM.run_try, h]
  rfl

/-- How a procedure ends: it returns, it throws, or the process is killed. -/
inductive Ending where
  | returns
  | throws
  | killed
deriving Repr, DecidableEq

def Ending.isKilled (ending : Ending) : Bool := ending = .killed

theorem Ending.isKilled_eq_true_iff {ending : Ending} : ending.isKilled = true ↔ ending = .killed :=
  decide_eq_true_iff

theorem Ending.isKilled_eq_false_iff {ending : Ending} : ending.isKilled = false ↔ ending ≠ .killed :=
  decide_eq_false_iff_not

def Fault.ending : Fault → Ending
  | .exception _ => .throws
  | .sigpipe => .killed

def resultEnding : EStateM.Result Fault σ α → Ending
  | .ok _ _ => .returns
  | .error fault _ => fault.ending

@[simp] theorem resultEnding_ok (a : α) (s : σ) :
    resultEnding (.ok a s : EStateM.Result Fault σ α) = .returns := rfl

@[simp] theorem resultEnding_error (fault : Fault) (s : σ) :
    resultEnding (.error fault s : EStateM.Result Fault σ α) = fault.ending := rfl

theorem eq_ok_of_ending {result : EStateM.Result Fault σ α} (h : resultEnding result = .returns) :
    ∃ a, result = .ok a result.state := by
  cases result with
  | ok a s => exact ⟨a, rfl⟩
  | error fault s => cases fault <;> cases h

theorem eq_exception_of_ending {result : EStateM.Result Fault σ α}
    (h : resultEnding result = .throws) : ∃ ex, result = .error (.exception ex) result.state := by
  cases result with
  | ok a s => cases h
  | error fault s =>
      cases fault with
      | exception ex => exact ⟨ex, rfl⟩
      | sigpipe => cases h

theorem eq_sigpipe_of_ending {result : EStateM.Result Fault σ α}
    (h : resultEnding result = .killed) : result = .error .sigpipe result.state := by
  cases result with
  | ok a s => cases h
  | error fault s =>
      cases fault with
      | exception ex => cases h
      | sigpipe => rfl

end Faults

/-! ## The connection -/

structure TlsStream where
  incoming : List (Except SslFailure ByteBuffer) := []
  /-- The calls of `SSL_write` after these take everything. -/
  outcomes : List WriteOutcome := []
  sent : ByteBuffer := []

/-- A return value of zero: the peer closed the connection. -/
def SslFailure.closed : SslFailure := .reports { sslError := 6, opensslError := 0 }

/-- `SSL_read` into a buffer, with `ssl_expect_positive`. -/
def sslRead (capacity : ℕ) : EStateM Fault TlsStream ByteBuffer := do
  let stream ← get
  match stream.incoming with
  | [] => throw (SslFailure.closed.toFault "SSL_read")
  | .error failure :: rest =>
      set { stream with incoming := rest }
      throw (failure.toFault "SSL_read")
  | .ok record :: rest =>
      let unread := if record.length ≤ capacity then rest else .ok (record.drop capacity) :: rest
      set { stream with incoming := unread }
      if record = [] then
        throw (SslFailure.closed.toFault "SSL_read")
      return record.take capacity

/-- `SSL_write`, with `ssl_expect_positive`. -/
def sslWrite (bytes : ByteBuffer) : EStateM Fault TlsStream { rc : ℕ // 0 < rc } := do
  let stream ← get
  match stream.outcomes.headD (.accepts bytes.length) with
  | .fails failure =>
      set { stream with outcomes := stream.outcomes.tail }
      throw (failure.toFault "SSL_write")
  | .accepts count =>
      set { stream with outcomes := stream.outcomes.tail, sent := stream.sent ++ bytes.take count }
      if h : 0 < min count bytes.length then
        return ⟨min count bytes.length, h⟩
      else throw (SslFailure.closed.toFault "SSL_write")

/-- One `SSL_read` into 4096 bytes; what it returns is taken for a whole message. -/
def readOneMessage : EStateM Fault TlsStream ByteBuffer := sslRead 4096

def writeAll (bytes : ByteBuffer) : EStateM Fault TlsStream Unit :=
  if bytes = [] then return ()
  else do
    let rc ← sslWrite bytes
    writeAll (bytes.drop rc.val)
termination_by bytes.length
decreasing_by
  have := rc.property
  have hlen : 0 < bytes.length := List.length_pos_iff.2 (by assumption)
  rw [List.length_drop]
  omega

/-- Every call of `SSL_write` will take at least one byte. -/
def TlsStream.WritesSucceed (stream : TlsStream) : Prop :=
  ∀ outcome ∈ stream.outcomes, ∃ count, outcome = .accepts count ∧ 0 < count

theorem run_readOneMessage {stream : TlsStream} {record : ByteBuffer}
    {rest : List (Except SslFailure ByteBuffer)} (h : stream.incoming = .ok record :: rest)
    (hne : record ≠ []) :
    readOneMessage.run stream = .ok (record.take 4096)
      { stream with incoming :=
          if record.length ≤ 4096 then rest else .ok (record.drop 4096) :: rest } := by
  simp only [readOneMessage, sslRead, EStateM.run_bind, EStateM.run_get, h, EStateM.run_set,
    if_neg hne]
  rfl

/-- What the first read delivers: nothing where it fails. -/
def TlsStream.firstMessage (stream : TlsStream) : Option ByteBuffer :=
  match stream.incoming with
  | .ok record :: _ => if record = [] then none else some (record.take 4096)
  | _ => none

/-- How the first read ends. -/
def TlsStream.readEnding (stream : TlsStream) : Ending :=
  match stream.incoming with
  | .error failure :: _ => (failure.toFault "SSL_read").ending
  | .ok record :: _ => if record = [] then .throws else .returns
  | [] => .throws

/-- The first read returns the first message, and there is none where it does not return. -/
theorem readOneMessage_cases (stream : TlsStream) :
    (∃ message stream', stream.firstMessage = some message ∧ stream.readEnding = .returns ∧
      readOneMessage.run stream = .ok message stream' ∧ message.length ≤ 4096 ∧
      stream'.outcomes = stream.outcomes) ∨
    (stream.firstMessage = none ∧ ∃ fault stream', readOneMessage.run stream = .error fault stream' ∧
      stream.readEnding = fault.ending) := by
  unfold TlsStream.firstMessage TlsStream.readEnding
  cases hincoming : stream.incoming with
  | nil =>
      refine Or.inr ⟨rfl, SslFailure.closed.toFault "SSL_read", stream, ?_, rfl⟩
      simp only [readOneMessage, sslRead, EStateM.run_bind, EStateM.run_get, hincoming]
      rfl
  | cons first rest =>
      cases first with
      | error failure =>
          refine Or.inr ⟨rfl, failure.toFault "SSL_read", { stream with incoming := rest }, ?_, rfl⟩
          simp only [readOneMessage, sslRead, EStateM.run_bind, EStateM.run_get, hincoming,
            EStateM.run_set]
          rfl
      | ok record =>
          by_cases hne : record = []
          · refine Or.inr ⟨if_pos hne, SslFailure.closed.toFault "SSL_read",
              { stream with incoming := rest }, ?_, if_pos hne⟩
            subst hne
            simp only [readOneMessage, sslRead, EStateM.run_bind, EStateM.run_get, hincoming,
              EStateM.run_set]
            rfl
          · exact Or.inl ⟨_, _, if_neg hne, if_neg hne, run_readOneMessage hincoming hne,
              List.length_take_le _ _, rfl⟩

/-- A call that takes at least one byte. -/
theorem run_sslWrite_accepts {stream : TlsStream} {bytes : ByteBuffer} {count : ℕ}
    (h : stream.outcomes.headD (.accepts bytes.length) = .accepts count)
    (hpos : 0 < min count bytes.length) :
    (sslWrite bytes).run stream = .ok ⟨min count bytes.length, hpos⟩
      { stream with outcomes := stream.outcomes.tail, sent := stream.sent ++ bytes.take count } := by
  simp only [sslWrite, EStateM.run_bind, EStateM.run_get, h, EStateM.run_set, dif_pos hpos]
  rfl

theorem run_sslWrite_fails {stream : TlsStream} {bytes : ByteBuffer} {failure : SslFailure}
    (h : stream.outcomes.headD (.accepts bytes.length) = .fails failure) :
    (sslWrite bytes).run stream
      = .error (failure.toFault "SSL_write") { stream with outcomes := stream.outcomes.tail } := by
  simp only [sslWrite, EStateM.run_bind, EStateM.run_get, h, EStateM.run_set]
  rfl

/-- A call that takes nothing fails too. -/
theorem run_sslWrite_accepts_none {stream : TlsStream} {bytes : ByteBuffer} {count : ℕ}
    (h : stream.outcomes.headD (.accepts bytes.length) = .accepts count)
    (hnone : ¬ 0 < min count bytes.length) :
    (sslWrite bytes).run stream = .error (SslFailure.closed.toFault "SSL_write") { stream with
      outcomes := stream.outcomes.tail, sent := stream.sent ++ bytes.take count } := by
  simp only [sslWrite, EStateM.run_bind, EStateM.run_get, h, EStateM.run_set, dif_neg hnone]
  rfl

theorem run_sslWrite {stream : TlsStream} (h : stream.WritesSucceed) {bytes : ByteBuffer}
    (hne : bytes ≠ []) :
    ∃ rc stream', (sslWrite bytes).run stream = .ok rc stream' ∧
      stream'.sent = stream.sent ++ bytes.take rc.val ∧ stream'.incoming = stream.incoming ∧
      stream'.WritesSucceed := by
  have hlen : 0 < bytes.length := List.length_pos_iff.2 hne
  obtain ⟨count, hcount, hpos⟩ : ∃ count,
      stream.outcomes.headD (.accepts bytes.length) = .accepts count ∧ 0 < count := by
    cases houtcomes : stream.outcomes with
    | nil => exact ⟨bytes.length, rfl, hlen⟩
    | cons outcome rest => exact h outcome (by rw [houtcomes]; simp)
  refine ⟨_, _, run_sslWrite_accepts hcount (lt_min hpos hlen), ?_, rfl,
    fun outcome hmem => h outcome (List.mem_of_mem_tail hmem)⟩
  rw [← List.take_eq_take_min]

/-- **When the calls of `SSL_write` succeed, `write_all` sends exactly the bytes it is given.** -/
theorem run_writeAll {stream : TlsStream} (h : stream.WritesSucceed) (bytes : ByteBuffer) :
    ∃ stream', (writeAll bytes).run stream = .ok () stream' ∧
      stream'.sent = stream.sent ++ bytes ∧ stream'.incoming = stream.incoming ∧
      stream'.WritesSucceed := by
  induction hn : bytes.length using Nat.strong_induction_on generalizing bytes stream with
  | _ n ih =>
      rw [writeAll]
      by_cases hne : bytes = []
      · rw [if_pos hne]
        exact ⟨stream, rfl, by rw [hne, List.append_nil], rfl, h⟩
      · rw [if_neg hne]
        -- each call takes at least one byte, so the loop ends
        obtain ⟨rc, mid, hrun, hsent, hincoming, hmid⟩ := run_sslWrite h hne
        have hlt : (bytes.drop rc.val).length < n := by
          have hpos := rc.property
          have hlen : 0 < bytes.length := List.length_pos_iff.2 hne
          rw [List.length_drop]
          omega
        obtain ⟨last, hrest, hsent', hincoming', hlast⟩ := ih _ hlt hmid _ rfl
        refine ⟨last, ?_, ?_, hincoming'.trans hincoming, hlast⟩
        · rw [EStateM.run_bind, hrun]
          exact hrest
        · rw [hsent', hsent, List.append_assoc, List.take_append_drop]

/-! ## Writes that may fail -/

/-- What these calls of `SSL_write` make of `length` bytes, and the calls that are left then. -/
def drain : ℕ → List WriteOutcome → Ending × List WriteOutcome
  | 0, outcomes => (.returns, outcomes)
  | _ + 1, [] => (.returns, [])
  | _ + 1, .fails failure :: outcomes => ((failure.toFault "SSL_write").ending, outcomes)
  | length + 1, .accepts count :: outcomes =>
      if count = 0 then (.throws, outcomes) else drain (length + 1 - count) outcomes

/-- **How `write_all` ends on any connection**: it returns when the calls take all the bytes, and else
    as the first call ends that fails. -/
theorem ending_writeAll (stream : TlsStream) (bytes : ByteBuffer) :
    resultEnding ((writeAll bytes).run stream) = (drain bytes.length stream.outcomes).1 ∧
      ((writeAll bytes).run stream).state.outcomes = (drain bytes.length stream.outcomes).2 := by
  induction hn : bytes.length using Nat.strong_induction_on generalizing bytes stream with
  | _ n ih =>
      rw [writeAll]
      by_cases hne : bytes = []
      · subst hne
        rw [List.length_nil] at hn
        rw [if_pos rfl, ← hn, drain]
        exact ⟨rfl, rfl⟩
      · rw [if_neg hne, EStateM.run_bind]
        obtain ⟨length, rfl⟩ : ∃ length, n = length + 1 :=
          Nat.exists_eq_succ_of_ne_zero (by rw [← hn]; simpa using hne)
        cases houtcomes : stream.outcomes with
        | nil =>
            -- one call takes everything
            have hwrite := @run_sslWrite_accepts stream bytes bytes.length (by rw [houtcomes]; rfl)
              (by omega)
            rw [hwrite]
            simp only [Nat.min_self, List.drop_length]
            rw [writeAll, if_pos rfl, houtcomes]
            exact ⟨rfl, rfl⟩
        | cons outcome outcomes =>
            have hhead : stream.outcomes.headD (.accepts bytes.length) = outcome := by
              rw [houtcomes]
              rfl
            cases outcome with
            | fails failure =>
                rw [run_sslWrite_fails hhead, houtcomes]
                exact ⟨rfl, rfl⟩
            | accepts count =>
                by_cases hcount : count = 0
                · have hnone : ¬ 0 < min count bytes.length := by
                    rw [hcount, Nat.zero_min]
                    exact Nat.lt_irrefl 0
                  rw [run_sslWrite_accepts_none hhead hnone, houtcomes, drain, if_pos hcount]
                  exact ⟨rfl, rfl⟩
                · -- the rest of the bytes goes to the calls that are left
                  have hwrite := run_sslWrite_accepts hhead (by omega)
                  have hrest : (bytes.drop (min count bytes.length)).length = length + 1 - count := by
                    rw [List.length_drop]
                    omega
                  have hshort : length + 1 - count < length + 1 := by omega
                  have hloop := ih _ hshort { stream with
                    outcomes := stream.outcomes.tail, sent := stream.sent ++ bytes.take count } _ hrest
                  rw [drain, if_neg hcount, hwrite]
                  simpa only [houtcomes, List.tail_cons] using hloop

/-- No call of OpenSSL on the connection raises SIGPIPE. -/
structure TlsStream.Spared (stream : TlsStream) : Prop where
  incoming : .error .raisesSigpipe ∉ stream.incoming
  outcomes : .fails .raisesSigpipe ∉ stream.outcomes

theorem SslFailure.ending_toFault {failure : SslFailure} (h : failure ≠ .raisesSigpipe)
    (action : String) : (failure.toFault action).ending = .throws := by
  cases failure with
  | reports error => rfl
  | raisesSigpipe => exact absurd rfl h

theorem drain_of_spared {outcomes : List WriteOutcome} (h : .fails .raisesSigpipe ∉ outcomes)
    (length : ℕ) :
    (drain length outcomes).1 ≠ .killed ∧ .fails .raisesSigpipe ∉ (drain length outcomes).2 := by
  induction outcomes generalizing length with
  | nil => cases length <;> exact ⟨Ending.noConfusion, h⟩
  | cons outcome outcomes ih =>
      have hrest : .fails .raisesSigpipe ∉ outcomes := fun hmem => h (List.mem_cons_of_mem _ hmem)
      cases length with
      | zero => exact ⟨Ending.noConfusion, h⟩
      | succ length =>
          cases outcome with
          | fails failure =>
              have hfailure : failure ≠ .raisesSigpipe := by
                rintro rfl
                exact h List.mem_cons_self
              rw [drain, SslFailure.ending_toFault hfailure]
              exact ⟨Ending.noConfusion, hrest⟩
          | accepts count =>
              rw [drain]
              split
              · exact ⟨Ending.noConfusion, hrest⟩
              · exact ih hrest _

theorem TlsStream.Spared.readEnding_ne_killed {stream : TlsStream} (h : stream.Spared) :
    stream.readEnding ≠ .killed := by
  unfold readEnding
  have hincoming := h.incoming
  cases hfirst : stream.incoming with
  | nil => exact Ending.noConfusion
  | cons first rest =>
      rw [hfirst] at hincoming
      cases first with
      | error failure =>
          have hfailure : failure ≠ .raisesSigpipe := by
            rintro rfl
            exact hincoming List.mem_cons_self
          simp only [SslFailure.ending_toFault hfailure]
          exact Ending.noConfusion
      | ok record =>
          simp only
          split <;> exact Ending.noConfusion

/-! ## What goes out -/

/-- One call of `SSL_write` sends a first part of its bytes. -/
theorem run_sslWrite_sent (stream : TlsStream) (bytes : ByteBuffer) :
    (∃ rc stream', (sslWrite bytes).run stream = .ok rc stream' ∧
      stream'.sent = stream.sent ++ bytes.take rc.val ∧ stream'.incoming = stream.incoming) ∨
    ∃ fault stream' count, (sslWrite bytes).run stream = .error fault stream' ∧
      stream'.sent = stream.sent ++ bytes.take count := by
  cases houtcome : stream.outcomes.headD (.accepts bytes.length) with
  | fails failure =>
      exact Or.inr ⟨_, _, 0, run_sslWrite_fails houtcome, by rw [List.take_zero, List.append_nil]⟩
  | accepts count =>
      by_cases hpos : 0 < min count bytes.length
      · refine Or.inl ⟨_, _, run_sslWrite_accepts houtcome hpos, ?_, rfl⟩
        rw [← List.take_eq_take_min]
      · exact Or.inr ⟨_, _, count, run_sslWrite_accepts_none houtcome hpos, rfl⟩

/-- **`write_all` sends a first part of its bytes**, and all of them if it returns. -/
theorem run_writeAll_sent (stream : TlsStream) (bytes : ByteBuffer) :
    (∃ stream', (writeAll bytes).run stream = .ok () stream' ∧
      stream'.sent = stream.sent ++ bytes ∧ stream'.incoming = stream.incoming) ∨
    ∃ fault stream' count, (writeAll bytes).run stream = .error fault stream' ∧
      stream'.sent = stream.sent ++ bytes.take count := by
  induction hn : bytes.length using Nat.strong_induction_on generalizing bytes stream with
  | _ n ih =>
      rw [writeAll]
      by_cases hne : bytes = []
      · rw [if_pos hne]
        exact Or.inl ⟨stream, rfl, by rw [hne, List.append_nil], rfl⟩
      · rw [if_neg hne]
        rcases run_sslWrite_sent stream bytes with ⟨rc, mid, hrun, hsent, hincoming⟩ |
          ⟨fault, mid, count, hrun, hsent⟩
        · have hlt : (bytes.drop rc.val).length < n := by
            have hpos := rc.property
            have hlen : 0 < bytes.length := List.length_pos_iff.2 hne
            rw [List.length_drop]
            omega
          -- the rest of the bytes follows what was sent
          rcases ih _ hlt mid _ rfl with ⟨last, hrest, hsent', hincoming'⟩ |
            ⟨fault, last, count, hrest, hsent'⟩
          · refine Or.inl ⟨last, ?_, ?_, hincoming'.trans hincoming⟩
            · rw [EStateM.run_bind, hrun]
              exact hrest
            · rw [hsent', hsent, List.append_assoc, List.take_append_drop]
          · refine Or.inr ⟨fault, last, rc.val + count, ?_, ?_⟩
            · rw [EStateM.run_bind, hrun]
              exact hrest
            · rw [hsent', hsent, List.append_assoc, List.take_add]
        · refine Or.inr ⟨fault, mid, count, ?_, hsent⟩
          rw [EStateM.run_bind, hrun]

end AsmProto
