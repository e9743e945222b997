import AsmProto.TlsRun
import Mathlib.Data.Nat.Size

set_option autoImplicit false

/-! # Certificates and the TLS profile

`certificate_utils.cpp`, `tls_profile.cpp` and `tls_context.cpp`, and the part of `serve_client` and
`send_request` before the first byte. OpenSSL and the network are the environment: what their calls
return is given, and what the code makes of it follows. -/

namespace AsmProto

/-! ## Certificates -/

/-- What `RSA_get0_key` gives; a `BIGNUM` is a natural number. -/
structure RsaKey where
  n : Option ℕ
  e : Option ℕ
deriving DecidableEq

/-- What `EVP_PKEY_base_id` and `EVP_PKEY_get0_RSA` give. -/
inductive PublicKey where
  | rsa (key : Option RsaKey)
  | other
deriving DecidableEq

/-- A name in a certificate, with what `X509_NAME_print_ex` makes of it. -/
inductive X509Name where
  | missing
  | withoutBio
  | unprintable
  | withoutBuffer
  | printed (text : StdString)
deriving DecidableEq

structure X509 where
  publicKey : Option PublicKey
  subject : X509Name
  issuer : X509Name
  /-- `X509_digest` with SHA-256. -/
  digest : Option (FixedBytes 32)
deriving DecidableEq

namespace CertificateUtils

def nameToString : X509Name → Except StdException StdString
  | .missing => .ok []
  | .withoutBio => .error (.asmError "failed to allocate BIO")
  | .unprintable => .error (.asmError "failed to format X509 name")
  | .withoutBuffer => .ok []
  | .printed text => .ok text

def sha256 (certificate : X509) : Except StdException (FixedBytes 32) :=
  match certificate.digest with
  | none => .error (.asmError "failed to digest peer certificate")
  | some digest => .ok digest

/-- What OpenSSL reports of a certificate. -/
def readCertificate : Option X509 → Except StdException Certificate
  | none => .error (.asmError "peer certificate missing")
  | some certificate => do
      let digest ← sha256 certificate
      let subject ← nameToString certificate.subject
      let issuer ← nameToString certificate.issuer
      .ok { subject := subject, issuer := issuer, sha256 := digest }

def readPeerIdentity (certificate : Option X509) : Except StdException PeerIdentity :=
  (readCertificate certificate).map AsmProto.readPeerIdentity

/-- `BN_get_word`: all ones where the number has no word. -/
def bnGetWord (number : ℕ) : ℕ := if number < 2 ^ 64 then number else 2 ^ 64 - 1

def validateCertificateProfile : Option X509 → Except StdException Unit
  | none => .error (.asmError "certificate missing")
  | some certificate =>
      match certificate.publicKey with
      | none => .error (.asmError "failed to read certificate public key")
      | some .other => .error (.asmError "certificate public key must be RSA")
      | some (.rsa none) => .error (.asmError "failed to access RSA public key")
      | some (.rsa (some key)) =>
          match key.n, key.e with
          | some n, some e =>
              -- `BN_num_bits`
              if n.size ≠ 2048 then .error (.asmError "certificate RSA key must be 2048 bits")
              else if bnGetWord e ≠ 65537 then
                .error (.asmError "certificate RSA exponent must be 65537")
              else .ok ()
          | _, _ => .error (.asmError "RSA public key parameters missing")

end CertificateUtils

/-- The profile: an RSA key of 2048 bits with the exponent 65537. -/
def X509.Conforms (certificate : X509) : Prop :=
  ∃ n, certificate.publicKey = some (.rsa (some { n := some n, e := some 65537 })) ∧
    n.size = 2048

namespace CertificateUtils

theorem bnGetWord_eq_iff {number : ℕ} : bnGetWord number = 65537 ↔ number = 65537 := by
  unfold bnGetWord
  split
  · rfl
  · omega

/-- **What `validate_certificate_profile` accepts**, whatever OpenSSL reports. -/
theorem validateCertificateProfile_eq_ok_iff {certificate : Option X509} :
    validateCertificateProfile certificate = .ok () ↔
      ∃ x509, certificate = some x509 ∧ x509.Conforms := by
  unfold X509.Conforms
  cases certificate with
  | none => simp [validateCertificateProfile]
  | some x509 =>
      simp only [validateCertificateProfile, Option.some.injEq, exists_eq_left']
      cases x509.publicKey with
      | none => simp
      | some key =>
          cases key with
          | other => simp
          | rsa key =>
              cases key with
              | none => simp
              | some key =>
                  obtain ⟨n, e⟩ := key
                  cases n with
                  | none => simp
                  | some n =>
                      cases e with
                      | none => simp
                      | some e =>
                          by_cases hsize : n.size = 2048
                          · simp [hsize, bnGetWord_eq_iff]
                          · simp only [ne_eq, hsize, not_false_eq_true, if_true, reduceCtorEq,
                              false_iff]
                            rintro ⟨m, hkey, hm⟩
                            simp only [Option.some.injEq, PublicKey.rsa.injEq, RsaKey.mk.injEq] at hkey
                            exact hsize (hkey.1 ▸ hm)

end CertificateUtils

/-! ## Contexts -/

/-- Paths are the bytes of their names. -/
structure TlsConfig where
  certificate : StdString
  privateKey : StdString
  caCertificate : StdString
  requirePeerCertificate : Bool := true
  verifyPeer : Bool := true
  allowTls10 : Bool := true
  cipherList : StdString := ascii "AES128-SHA"

/-- What the profile sets in an `SSL_CTX`. -/
structure SslCtx where
  cipherList : Option StdString := none
  minProtoVersion : Option ℕ := none
  maxProtoVersion : Option ℕ := none
  securityLevel : ℕ := 1
  noCompression : Bool := false
  certificateFile : Option StdString := none
  privateKeyFile : Option StdString := none
  verifyLocations : Option StdString := none
  verifyPeer : Bool := false
  failIfNoPeerCert : Bool := false
deriving DecidableEq

/-- What the calls of OpenSSL return while a context is built. -/
structure OpenSsl where
  /-- `BIO_new_file`, and then `PEM_read_bio_X509`. -/
  pemFile : StdString → Option (Option X509)
  ctxNew : Bool := true
  setCipherList : StdString → Bool := fun _ => true
  setProtoVersion : ℕ → Bool := fun _ => true
  useCertificateFile : StdString → Bool := fun _ => true
  usePrivateKeyFile : StdString → Bool := fun _ => true
  checkPrivateKey : SslCtx → Bool := fun _ => true
  loadVerifyLocations : StdString → Bool := fun _ => true

def CertificateUtils.validateCertificateProfileFromFile (openSsl : OpenSsl)
    (certificatePath : StdString) : Except StdException Unit :=
  match openSsl.pemFile certificatePath with
  | none => .error (.asmError "failed to open certificate file")
  | some none => .error (.asmError "failed to parse certificate file")
  | some (some certificate) => validateCertificateProfile (some certificate)

theorem CertificateUtils.validateCertificateProfileFromFile_of_conforms {openSsl : OpenSsl}
    {certificatePath : StdString} {certificate : X509}
    (hfile : openSsl.pemFile certificatePath = some (some certificate))
    (hconforms : certificate.Conforms) :
    validateCertificateProfileFromFile openSsl certificatePath = .ok () := by
  rw [validateCertificateProfileFromFile, hfile]
  exact validateCertificateProfile_eq_ok_iff.2 ⟨certificate, rfl, hconforms⟩

namespace TlsProfile

/-- `TLS1_VERSION`. -/
def tls1Version : ℕ := 0x0301

/-- A call on the context, with `expect`. -/
def expect (result : Bool) (message : String) (effect : SslCtx → SslCtx) :
    EStateM StdException SslCtx Unit :=
  if result then modify effect else throw (.asmError message)

/-- `allow_tls10` allows nothing else. -/
def pinVersion (openSsl : OpenSsl) (config : TlsConfig) : EStateM StdException SslCtx Unit :=
  if config.allowTls10 then do
    expect (openSsl.setProtoVersion tls1Version) "failed to set min TLS version"
      fun ctx => { ctx with minProtoVersion := some tls1Version }
    expect (openSsl.setProtoVersion tls1Version) "failed to set max TLS version"
      fun ctx => { ctx with maxProtoVersion := some tls1Version }
  else return ()

def loadCredentials (openSsl : OpenSsl) (config : TlsConfig) : EStateM StdException SslCtx Unit :=
  if config.certificate = [] ∧ config.privateKey = [] then return ()
  else if config.certificate = [] ∨ config.privateKey = [] then
    throw (.asmError "certificate and private key must be provided together")
  else do
    expect (openSsl.useCertificateFile config.certificate) "failed to load certificate"
      fun ctx => { ctx with certificateFile := some config.certificate }
    expect (openSsl.usePrivateKeyFile config.privateKey) "failed to load private key"
      fun ctx => { ctx with privateKeyFile := some config.privateKey }
    let ctx ← get
    expect (openSsl.checkPrivateKey ctx) "private key mismatch" id

def apply (openSsl : OpenSsl) (config : TlsConfig) (serverMode : Bool) :
    EStateM StdException SslCtx Unit := do
  EStateM.liftExcept
    (CertificateUtils.validateCertificateProfileFromFile openSsl config.certificate)
  expect (openSsl.setCipherList config.cipherList) "failed to set cipher list"
    fun ctx => { ctx with cipherList := some config.cipherList }
  pinVersion openSsl config
  modify fun ctx => { ctx with securityLevel := 0, noCompression := true }
  loadCredentials openSsl config
  expect (openSsl.loadVerifyLocations config.caCertificate) "failed to load CA certificate"
    fun ctx => { ctx with verifyLocations := some config.caCertificate }
  -- the server alone asks that there is a certificate
  modify fun ctx => { ctx with
    verifyPeer := config.verifyPeer
    failIfNoPeerCert := config.verifyPeer && (serverMode && config.requirePeerCertificate) }

theorem run_expect_eq_ok_iff {result : Bool} {message : String} {effect : SslCtx → SslCtx}
    {ctx ctx' : SslCtx} :
    (expect result message effect).run ctx = .ok () ctx' ↔ result = true ∧ ctx' = effect ctx := by
  unfold expect
  cases result with
  | false => exact iff_of_false nofun (by simp)
  | true =>
      rw [if_pos rfl]
      refine ⟨fun h => ⟨rfl, ?_⟩, ?_⟩
      · injection h with _ hctx
        exact hctx.symm
      · rintro ⟨-, rfl⟩
        rfl

/-- What the own certificate and the context are like after the profile was applied. -/
structure Configured (openSsl : OpenSsl) (config : TlsConfig) (ctx : SslCtx) : Prop where
  own : ∃ own, openSsl.pemFile config.certificate = some (some own) ∧ own.Conforms
  verifyLocations : ctx.verifyLocations = some config.caCertificate
  verifyPeer : ctx.verifyPeer = config.verifyPeer

/-- **What the profile leaves**, whatever OpenSSL returns. -/
theorem configured_of_apply {openSsl : OpenSsl} {config : TlsConfig} {serverMode : Bool}
    {ctx ctx' : SslCtx} (h : (apply openSsl config serverMode).run ctx = .ok () ctx') :
    Configured openSsl config ctx' := by
  unfold apply at h
  obtain ⟨_, ctx₁, hprofile, h⟩ := EStateM.run_bind_eq_ok_iff.1 h
  obtain ⟨_, ctx₂, -, h⟩ := EStateM.run_bind_eq_ok_iff.1 h
  obtain ⟨_, ctx₃, -, h⟩ := EStateM.run_bind_eq_ok_iff.1 h
  obtain ⟨_, ctx₄, -, h⟩ := EStateM.run_bind_eq_ok_iff.1 h
  obtain ⟨_, ctx₅, -, h⟩ := EStateM.run_bind_eq_ok_iff.1 h
  obtain ⟨_, ctx₆, hlocations, h⟩ := EStateM.run_bind_eq_ok_iff.1 h
  obtain ⟨-, rfl⟩ := run_expect_eq_ok_iff.1 hlocations
  injection h with _ hlast
  subst hlast
  refine ⟨?_, rfl, rfl⟩
  unfold CertificateUtils.validateCertificateProfileFromFile at hprofile
  cases hfile : openSsl.pemFile config.certificate with
  | none =>
      rw [hfile] at hprofile
      cases hprofile
  | some read =>
      rw [hfile] at hprofile
      cases read with
      | none => cases hprofile
      | some own =>
          cases hvalid : CertificateUtils.validateCertificateProfile (some own) with
          | error ex =>
              simp only [hvalid] at hprofile
              cases hprofile
          | ok _ =>
              obtain ⟨x509, hown, hconforms⟩ :=
                CertificateUtils.validateCertificateProfile_eq_ok_iff.1 hvalid
              obtain rfl := Option.some.inj hown
              exact ⟨own, rfl, hconforms⟩

end TlsProfile

namespace TlsContextFactory

def createCtx (openSsl : OpenSsl) (config : TlsConfig) (serverMode : Bool) :
    Except StdException SslCtx :=
  if openSsl.ctxNew then
    match (TlsProfile.apply openSsl config serverMode).run {} with
    | .ok _ ctx => .ok ctx
    | .error ex _ => .error ex
  else .error (.asmError "failed to allocate SSL_CTX")

def createServer (openSsl : OpenSsl) (config : TlsConfig) : Except StdException SslCtx :=
  createCtx openSsl config true

def createClient (openSsl : OpenSsl) (config : TlsConfig) : Except StdException SslCtx :=
  createCtx openSsl config false

end TlsContextFactory

end AsmProto
