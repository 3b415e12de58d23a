/-
The identity on disk.

`sanctum init` makes a key and writes it to three files, if there is no key yet; every other command that
needs an identity loads it from the first of them.  `sanctum identity import` writes another file, which only
`sanctum identity show` reads.  A write may fail, before the file has been opened or after some bytes of it.

Main definitions:

* `Sanctum.IdentityAdapter` — an identity, its key and its fingerprint;
* `Sanctum.FileWrite`, `Sanctum.Files` — what `fs::write` does, and the files of a profile;
* `Sanctum.IdentityCommand`, `Sanctum.IdentityCommand.run` — **the commands**.

Main results:

* `Sanctum.IdentityAdapter.new_fingerprintText` — a fingerprint can always be derived;
* `Sanctum.IdentityCommand.identity_run` — **the key is written once**, whatever commands there are and
  whatever fails, and what is in the other files belongs to it.
-/

import Sanctum.InviteDecoding

set_option relaxedAutoImplicit false
set_option autoImplicit false

namespace Sanctum

/-! ### Identities -/

/-- Ed25519 and the hash function. -/
structure IdentityCrypto where
  verifyingKey : Bytes32 → Bytes32
  sha256 : Bytes → Bytes32

/-- Ed25519 identity for signing and verification. -/
structure IdentityAdapter where
  signingKey : Bytes32
  verifyingKey : Bytes32
  fingerprint : Fingerprint
deriving DecidableEq

namespace IdentityAdapter

variable (crypto : IdentityCrypto)

/-- The text of the fingerprint of a key. -/
def fingerprintText (verifyingKey : Bytes32) : String :=
  String.ofList (((crypto.sha256 (asBytes "sanctum-fingerprint-v1:" ++ verifyingKey.val)).val.take 20).flatMap
    fun b => (hexByte b).toList)

theorem isUpperHexdigit_hexDigit : ∀ n < 16, isUpperHexdigit (hexDigit n) = true := by decide

/-- A byte is two digits. -/
theorem toList_hexByte (b : UInt8) :
    (hexByte b).toList = [hexDigit (b.toNat / 16), hexDigit (b.toNat % 16)] := by
  rw [hexByte, String.toList_ofList]

theorem length_flatMap_hexByte (bytes : Bytes) :
    (bytes.flatMap fun b => (hexByte b).toList).length = 2 * bytes.length := by
  induction bytes with
  | nil => rfl
  | cons b bytes ih =>
      rw [List.flatMap_cons, List.length_append, ih, toList_hexByte, List.length_cons]
      simp only [List.length_cons, List.length_nil]
      omega

/-- The text has 40 digits. -/
theorem isFingerprintText (verifyingKey : Bytes32) :
    IsFingerprintText (fingerprintText crypto verifyingKey) := by
  have hhash := (crypto.sha256 (asBytes "sanctum-fingerprint-v1:" ++ verifyingKey.val)).property
  unfold IsFingerprintText fingerprintText
  rw [String.toList_ofList]
  refine ⟨?_, ?_⟩
  · rw [length_flatMap_hexByte, List.length_take, hhash]
    rfl
  · intro c hc
    obtain ⟨b, -, hb⟩ := List.mem_flatMap.1 hc
    have hlt := b.toNat_lt
    rw [toList_hexByte, List.mem_cons, List.mem_singleton] at hb
    rcases hb with rfl | rfl
    · exact isUpperHexdigit_hexDigit _ (by omega)
    · exact isUpperHexdigit_hexDigit _ (by omega)

/-- **A fingerprint can always be derived**: the constructor takes the text. -/
theorem new_fingerprintText (verifyingKey : Bytes32) :
    Fingerprint.new (fingerprintText crypto verifyingKey) = .ok ⟨fingerprintText crypto verifyingKey⟩ :=
  @Fingerprint.new_hex ⟨fingerprintText crypto verifyingKey⟩ (isFingerprintText crypto verifyingKey)

/-- Derive a 40-char hex fingerprint from an Ed25519 public key: the `unwrap` never fails. -/
def deriveFingerprint (verifyingKey : Bytes32) : Fingerprint :=
  match h : Fingerprint.new (fingerprintText crypto verifyingKey) with
  | .ok fp => fp
  | .error _ => False.elim (by rw [new_fingerprintText] at h; cases h)

/-- The identity with this key. -/
def ofKey (signingKey : Bytes32) : IdentityAdapter where
  signingKey := signingKey
  verifyingKey := crypto.verifyingKey signingKey
  fingerprint := deriveFingerprint crypto (crypto.verifyingKey signingKey)

/-- Generate a new random Ed25519 identity. -/
def generate (random : Bytes32) : IdentityAdapter := ofKey crypto random

/-- Create from raw 32-byte secret key. -/
def fromKey (secretBytes : Bytes) : Except SanctumError IdentityAdapter :=
  if h : secretBytes.length = 32 then .ok (ofKey crypto ⟨secretBytes, h⟩)
  else .error (.authFailed ("signing key must be 32 bytes, got " ++ toString secretBytes.length))

/-- A key is taken if it is whole. -/
theorem fromKey_eq_ok {secretBytes : Bytes} {id : IdentityAdapter} :
    fromKey crypto secretBytes = .ok id ↔
      ∃ signingKey : Bytes32, secretBytes = signingKey.val ∧ id = ofKey crypto signingKey := by
  unfold fromKey
  split_ifs with h
  · refine ⟨fun hok => ⟨⟨secretBytes, h⟩, rfl, (Except.ok.inj hok).symm⟩, ?_⟩
    rintro ⟨signingKey, rfl, rfl⟩
    rfl
  · refine ⟨fun herror => (by cases herror), ?_⟩
    rintro ⟨signingKey, rfl, -⟩
    exact absurd signingKey.property h

end IdentityAdapter

/-! ### Files -/

/-- What `fs::write` does: it writes everything, does not open the file, or fails after some bytes. -/
inductive FileWrite
  | ok
  | refused (text : String)
  | cut (text : String) (taken : ℕ)
deriving DecidableEq

namespace FileWrite

def result : FileWrite → Except String Unit
  | .ok => .ok ()
  | .refused text => .error text
  | .cut text _ => .error text

/-- What is in the file then, if it has been opened. -/
def contents (data : Bytes) : FileWrite → Option Bytes
  | .ok => some data
  | .refused _ => none
  | .cut _ taken => some (data.take taken)

end FileWrite

/-- **The files of a profile**, under their paths in the home directory. -/
abbrev Files : Type := HashMap String Bytes

namespace Files

def privKeyFile : String := "keys/identity.key"

def pubKeyFile : String := "keys/identity.pub"

def fpFile : String := "keys/identity.fingerprint"

def signingKeyFile : String := "keys/signing.key"

def configFile : String := "config.toml"

/-- `fs::write`. -/
def write (files : Files) (path : String) (data : Bytes) (w : FileWrite) : Files :=
  match w.contents data with
  | some bytes => files.insert path bytes
  | none => files

/-- A write changes no other file. -/
theorem lookup_write_of_ne {files : Files} {path path' : String} (h : path' ≠ path) (data : Bytes)
    (w : FileWrite) : (files.write path data w).lookup path' = files.lookup path' := by
  unfold write
  cases w.contents data with
  | none => rfl
  | some bytes => exact Finmap.lookup_insert_of_ne _ h

/-- A file after a write. -/
theorem lookup_write (files : Files) (path : String) (data : Bytes) (w : FileWrite) :
    (files.write path data w).lookup path = (w.contents data).or (files.lookup path) := by
  unfold write
  cases w.contents data with
  | none => rfl
  | some bytes => exact Finmap.lookup_insert _

end Files

/-! ### Loading and saving -/

/-- What surrounds the commands: the alias and the ports of the configuration, the home directory, and the text
of the error for a file that is not there. -/
structure ProfileEnv where
  identityAlias : String
  controlPort : UInt16
  socksPort : UInt16
  listenPort : UInt16
  home : String
  notFound : String

/-- What the file system does when an identity is saved. -/
structure SaveIo where
  keyDir : Except String Unit
  privKey : FileWrite
  pubKey : FileWrite
  fp : FileWrite

namespace IdentityAdapter

variable (crypto : IdentityCrypto) (env : ProfileEnv)

/-- Load identity from ~/.sanctum/keys/ -/
def loadFromDisk (files : Files) : Except SanctumError IdentityAdapter :=
  match files.lookup Files.privKeyFile with
  | none => .error (.authFailed ("cannot read identity key at " ++ env.home ++ "/" ++ Files.privKeyFile ++ ": " ++
      env.notFound ++ "\nRun `sanctum init` first."))
  | some keyBytes => fromKey crypto keyBytes

/-- Save identity to ~/.sanctum/keys/ -/
def saveToDisk (id : IdentityAdapter) (io : SaveIo) (files : Files) : Except SanctumError Unit × Files :=
  match io.keyDir with
  | .error e => (.error (.storageError ("create keys dir: " ++ e)), files)
  | .ok () =>
    let files := files.write Files.privKeyFile id.signingKey.val io.privKey
    match io.privKey.result with
    | .error e => (.error (.storageError ("write private key: " ++ e)), files)
    | .ok () =>
      let files := files.write Files.pubKeyFile id.verifyingKey.val io.pubKey
      match io.pubKey.result with
      | .error e => (.error (.storageError ("write public key: " ++ e)), files)
      | .ok () =>
        let files := files.write Files.fpFile (asBytes id.fingerprint.hex) io.fp
        match io.fp.result with
        | .error e => (.error (.storageError ("write fingerprint: " ++ e)), files)
        | .ok () => (.ok (), files)

end IdentityAdapter

/-! ### The commands -/

/-- What the file system does in `sanctum init`. -/
structure InitIo where
  keysDir : Except String Unit
  dataDir : Except String Unit
  homePermissions : Except String Unit
  save : SaveIo
  config : FileWrite
  configPermissions : Except String Unit

/-- **A command that has to do with the identity**; `load` is the beginning of the commands that need one. -/
inductive IdentityCommand
  | init (displayAlias : Option String) (random : Bytes32) (io : InitIo)
  | importKey (keyfile : Except String Bytes) (w : FileWrite) (permissions : Except String Unit)
  | showKey
  | generateKey (random : Bytes32) (keysDir : Except String Unit)
  | load

/-- The errors of the commands. -/
inductive IdentityError
  | sanctum (e : SanctumError)
  | text (text : String)
deriving DecidableEq

/-- What a command tells the user, or how it ends. -/
inductive IdentityOutput
  | profileExists (fp : Fingerprint)
  | initialized (displayAlias : String) (fp : Fingerprint)
  | imported (fp : Fingerprint)
  | identity (fp : Fingerprint) (displayAlias : String)
  | generated (fp : Fingerprint)
  | loaded (id : IdentityAdapter)
  | failed (e : IdentityError)
  | panicked
deriving DecidableEq

namespace IdentityCommand

variable (crypto : IdentityCrypto) (env : ProfileEnv)

/-- The text of the configuration that `init` writes. -/
def configContent (displayAlias : String) (fp : Fingerprint) : String :=
  "[identity]\nalias = \"" ++ displayAlias ++ "\"\npgp_key_id = \"" ++ fp.hex ++ "\"\n\n[tor]\ncontrol_port = " ++
    toString env.controlPort.toNat ++ "\nsocks_port = " ++ toString env.socksPort.toNat ++
    "\n\n[host]\ndefault_mode = \"ephemeral\"\nlisten_port = " ++ toString env.listenPort.toNat ++
    "\n\n[chat]\nauto_chat_on_join = true\nbacklog_display = 50\n"

/-- Initialize a new Sanctum profile. -/
def runInit (displayAlias : Option String) (random : Bytes32) (io : InitIo) (files : Files) :
    IdentityOutput × Files :=
  if (files.lookup Files.privKeyFile).isSome then
    match IdentityAdapter.loadFromDisk crypto env files with
    | .error e => (.failed (.sanctum e), files)
    | .ok id => (.profileExists id.fingerprint, files)
  else
    match io.keysDir, io.dataDir, io.homePermissions with
    | .ok (), .ok (), .ok () =>
      let id := IdentityAdapter.generate crypto random
      match id.saveToDisk io.save files with
      | (.error e, files) => (.failed (.sanctum e), files)
      | (.ok (), files) =>
        let displayAlias := displayAlias.getD env.identityAlias
        let files := files.write Files.configFile (asBytes (configContent env displayAlias id.fingerprint)) io.config
        match io.config.result, io.configPermissions with
        | .ok (), .ok () => (.initialized displayAlias id.fingerprint, files)
        | .error e, _ => (.failed (.text e), files)
        | .ok (), .error e => (.failed (.text e), files)
    | .error e, _, _ => (.failed (.text e), files)
    | .ok (), .error e, _ => (.failed (.text e), files)
    | .ok (), .ok (), .error e => (.failed (.text e), files)

/-- Import a key file. -/
def runImport (keyfile : Except String Bytes) (w : FileWrite) (permissions : Except String Unit)
    (files : Files) : IdentityOutput × Files :=
  match keyfile with
  | .error e => (.failed (.text e), files)
  | .ok keyData =>
    if keyData.length < 32 then (.failed (.text "key file too small (need at least 32 bytes)"), files)
    else
      let files := files.write Files.signingKeyFile keyData w
      match w.result, permissions with
      | .error e, _ => (.failed (.text e), files)
      | .ok (), .error e => (.failed (.text e), files)
      | .ok (), .ok () =>
        match IdentityAdapter.fromKey crypto (keyData.take 32) with
        | .error e => (.failed (.sanctum e), files)
        | .ok id => (.imported id.fingerprint, files)

/-- Load the current identity from disk: `none` where the key is too short to be cut. -/
def loadIdentity (files : Files) : Option (Except IdentityError IdentityAdapter) :=
  match files.lookup Files.signingKeyFile with
  | none => some (.error (.text "no identity found — run `sanctum identity import` first"))
  | some keyData =>
    if keyData.length < 32 then none
    else some ((IdentityAdapter.fromKey crypto (keyData.take 32)).mapError .sanctum)

/-- **Run a command**: what it tells, and the files after it. -/
def run : IdentityCommand → Files → IdentityOutput × Files
  | .init displayAlias random io, files => runInit crypto env displayAlias random io files
  | .importKey keyfile w permissions, files => runImport crypto keyfile w permissions files
  | .showKey, files =>
    match loadIdentity crypto files with
    | none => (.panicked, files)
    | some (.error e) => (.failed e, files)
    | some (.ok id) => (.identity id.fingerprint env.identityAlias, files)
  | .generateKey random keysDir, files =>
    match keysDir with
    | .error e => (.failed (.text e), files)
    | .ok () => (.generated (IdentityAdapter.generate crypto random).fingerprint, files)
  | .load, files =>
    match IdentityAdapter.loadFromDisk crypto env files with
    | .error e => (.failed (.sanctum e), files)
    | .ok id => (.loaded id, files)

/-- The files after some commands. -/
def after (commands : List IdentityCommand) (files : Files) : Files :=
  commands.foldl (fun files command => (command.run crypto env files).2) files

/-! ### What the commands write -/

/-- What `init` puts into the key file, if it gets so far and opens it. -/
def keyWritten : IdentityCommand → Option Bytes
  | .init _ random io =>
    match io.keysDir, io.dataDir, io.homePermissions, io.save.keyDir with
    | .ok (), .ok (), .ok (), .ok () => io.save.privKey.contents random.val
    | _, _, _, _ => none
  | _ => none

/-- What `identity import` puts into its file. -/
def keyImported : IdentityCommand → Option Bytes
  | .importKey (.ok keyData) w _ => if keyData.length < 32 then none else w.contents keyData
  | _ => none

/-- **The other files belong to the key**: there is no public key without a whole key, and no fingerprint
without a whole public key, and each of them is what the key gives, or the beginning of it. -/
structure Belongs (files : Files) : Prop where
  pubKey : ∀ bytes, files.lookup Files.pubKeyFile = some bytes → ∃ signingKey : Bytes32,
    files.lookup Files.privKeyFile = some signingKey.val ∧ bytes <+: (crypto.verifyingKey signingKey).val
  fp : ∀ bytes, files.lookup Files.fpFile = some bytes → ∃ signingKey : Bytes32,
    files.lookup Files.privKeyFile = some signingKey.val ∧
      files.lookup Files.pubKeyFile = some (crypto.verifyingKey signingKey).val ∧
      bytes <+: asBytes (IdentityAdapter.ofKey crypto signingKey).fingerprint.hex

variable {crypto env} {files files' : Files} {random : Bytes32} {io : SaveIo}

theorem belongs_of_none (hpub : files.lookup Files.pubKeyFile = none)
    (hfp : files.lookup Files.fpFile = none) : Belongs crypto files where
  pubKey bytes hbytes := by
    rw [hpub] at hbytes
    cases hbytes
  fp bytes hbytes := by
    rw [hfp] at hbytes
    cases hbytes

/-- Files with the same three contents. -/
theorem Belongs.congr (h : Belongs crypto files)
    (hsame : ∀ path ∈ [Files.privKeyFile, Files.pubKeyFile, Files.fpFile],
      files'.lookup path = files.lookup path) : Belongs crypto files' := by
  have hpriv := hsame Files.privKeyFile (by simp)
  have hpub := hsame Files.pubKeyFile (by simp)
  have hfp := hsame Files.fpFile (by simp)
  refine ⟨?_, ?_⟩
  · rw [hpub, hpriv]
    exact h.pubKey
  · rw [hfp, hpriv, hpub]
    exact h.fp

/-- A file that has been written holds the data, or the beginning of them. -/
theorem prefix_of_contents {w : FileWrite} {data bytes : Bytes} (h : w.contents data = some bytes) :
    bytes <+: data := by
  unfold FileWrite.contents at h
  split at h
  · cases h
    exact List.prefix_refl _
  · cases h
  · cases h
    exact List.take_prefix _ _

theorem contents_of_ok {w : FileWrite} (h : w.result = .ok ()) (data : Bytes) : w.contents data = some data := by
  unfold FileWrite.result at h
  split at h
  · rfl
  · cases h
  · cases h

/-- A whole key, and what belongs to it. -/
theorem belongs_of_key (hkey : files.lookup Files.privKeyFile = some random.val)
    (hpub : ∀ bytes, files.lookup Files.pubKeyFile = some bytes → bytes <+: (crypto.verifyingKey random).val)
    (hfp : ∀ bytes, files.lookup Files.fpFile = some bytes →
      files.lookup Files.pubKeyFile = some (crypto.verifyingKey random).val ∧
        bytes <+: asBytes (IdentityAdapter.ofKey crypto random).fingerprint.hex) : Belongs crypto files where
  pubKey bytes hbytes := ⟨random, hkey, hpub bytes hbytes⟩
  fp bytes hbytes := ⟨random, hkey, hfp bytes hbytes⟩

/-- **What is on disk after an identity has been saved** over a profile without one. -/
theorem belongs_saveToDisk (hpub : files.lookup Files.pubKeyFile = none)
    (hfp : files.lookup Files.fpFile = none) :
    Belongs crypto ((IdentityAdapter.ofKey crypto random).saveToDisk io files).2 := by
  have hpubpriv : Files.pubKeyFile ≠ Files.privKeyFile := by decide
  have hfppriv : Files.fpFile ≠ Files.privKeyFile := by decide
  have hfppub : Files.fpFile ≠ Files.pubKeyFile := by decide
  unfold IdentityAdapter.saveToDisk
  cases io.keyDir with
  | error e => exact belongs_of_none hpub hfp
  | ok dir =>
      dsimp only
      have hpub₁ := (Files.lookup_write_of_ne hpubpriv random.val io.privKey).trans hpub
      have hfp₁ := (Files.lookup_write_of_ne hfppriv random.val io.privKey).trans hfp
      cases hpriv : io.privKey.result with
      | error e => exact belongs_of_none hpub₁ hfp₁
      | ok wrote =>
          -- the whole key is on disk
          have hkey : (files.write Files.privKeyFile random.val io.privKey).lookup Files.privKeyFile =
              some random.val := by
            rw [Files.lookup_write, contents_of_ok hpriv]
            rfl
          have hpub₂ : ((files.write Files.privKeyFile random.val io.privKey).write Files.pubKeyFile
              (crypto.verifyingKey random).val io.pubKey).lookup Files.pubKeyFile =
                io.pubKey.contents (crypto.verifyingKey random).val := by
            rw [Files.lookup_write, hpub₁, Option.or_none]
          have hkey₂ := (Files.lookup_write_of_ne hpubpriv.symm (crypto.verifyingKey random).val
            io.pubKey).trans hkey
          have hfp₂ := (Files.lookup_write_of_ne hfppub (crypto.verifyingKey random).val io.pubKey).trans hfp₁
          dsimp only
          cases hpubw : io.pubKey.result with
          | error e =>
              refine belongs_of_key hkey₂ (fun bytes hbytes => ?_) fun bytes hbytes => ?_
              · exact prefix_of_contents (hpub₂.symm.trans hbytes)
              · cases hfp₂.symm.trans hbytes
          | ok wrote =>
              rw [contents_of_ok hpubw] at hpub₂
              have hkey₃ := (Files.lookup_write_of_ne hfppriv.symm
                (asBytes (IdentityAdapter.ofKey crypto random).fingerprint.hex) io.fp).trans hkey₂
              have hpub₃ := (Files.lookup_write_of_ne hfppub.symm
                (asBytes (IdentityAdapter.ofKey crypto random).fingerprint.hex) io.fp).trans hpub₂
              have hbelongs : Belongs crypto (((files.write Files.privKeyFile random.val io.privKey).write
                  Files.pubKeyFile (crypto.verifyingKey random).val io.pubKey).write Files.fpFile
                    (asBytes (IdentityAdapter.ofKey crypto random).fingerprint.hex) io.fp) := by
                refine belongs_of_key hkey₃ (fun bytes hbytes => ?_) fun bytes hbytes => ⟨hpub₃, ?_⟩
                · obtain rfl := Option.some.inj (hpub₃.symm.trans hbytes)
                  exact List.prefix_refl _
                · rw [Files.lookup_write, hfp₂, Option.or_none] at hbytes
                  exact prefix_of_contents hbytes
              dsimp only
              cases io.fp.result with
              | error e => exact hbelongs
              | ok wrote => exact hbelongs

/-- A file that is neither the public key nor the fingerprint, after an identity has been saved. -/
theorem lookup_saveToDisk {path : String} (hpub : path ≠ Files.pubKeyFile) (hfp : path ≠ Files.fpFile)
    (id : IdentityAdapter) : (id.saveToDisk io files).2.lookup path =
      match io.keyDir with
      | .error _ => files.lookup path
      | .ok () => (files.write Files.privKeyFile id.signingKey.val io.privKey).lookup path := by
  unfold IdentityAdapter.saveToDisk
  cases io.keyDir with
  | error e => rfl
  | ok dir =>
      have hpub₂ : ((files.write Files.privKeyFile id.signingKey.val io.privKey).write Files.pubKeyFile
          id.verifyingKey.val io.pubKey).lookup path = _ := Files.lookup_write_of_ne hpub _ _
      have hfp₃ := (Files.lookup_write_of_ne hfp (asBytes id.fingerprint.hex) io.fp).trans hpub₂
      dsimp only
      cases io.privKey.result with
      | error e => rfl
      | ok wrote =>
          dsimp only
          cases io.pubKey.result with
          | error e => exact hpub₂
          | ok wrote =>
              dsimp only
              cases io.fp.result with
              | error e => exact hfp₃
              | ok wrote => exact hfp₃

/-- The directories are there, and `init` gets to the key. -/
def Prepared (io : InitIo) : Prop := io.keysDir = .ok () ∧ io.dataDir = .ok () ∧ io.homePermissions = .ok ()

variable {displayAlias : Option String} {initIo : InitIo}

/-- **`init` leaves a profile with a key alone**, and one whose directories cannot be made. -/
theorem runInit_of_blocked (h : (files.lookup Files.privKeyFile).isSome = true ∨ ¬ Prepared initIo) :
    (runInit crypto env displayAlias random initIo files).2 = files := by
  unfold runInit
  split_ifs with hkey
  · cases IdentityAdapter.loadFromDisk crypto env files with
    | error e => rfl
    | ok id => rfl
  · have hprepared := h.resolve_left hkey
    split
    · next hkeys hdata hperms => exact absurd ⟨hkeys, hdata, hperms⟩ hprepared
    · rfl
    · rfl
    · rfl

/-- Else it saves an identity, and writes the configuration. -/
theorem lookup_runInit (hkey : files.lookup Files.privKeyFile = none) (hprepared : Prepared initIo)
    {path : String} (hpath : path ≠ Files.configFile) :
    (runInit crypto env displayAlias random initIo files).2.lookup path =
      ((IdentityAdapter.ofKey crypto random).saveToDisk initIo.save files).2.lookup path := by
  obtain ⟨hkeys, hdata, hperms⟩ := hprepared
  unfold runInit IdentityAdapter.generate
  rw [hkey, if_neg (by simp), hkeys, hdata, hperms]
  dsimp only
  rcases (IdentityAdapter.ofKey crypto random).saveToDisk initIo.save files with ⟨e | saved, files'⟩
  · rfl
  · dsimp only
    split
    · exact Files.lookup_write_of_ne hpath _ _
    · exact Files.lookup_write_of_ne hpath _ _
    · exact Files.lookup_write_of_ne hpath _ _

/-- `init` gets to the key only if the directories are there. -/
theorem keyWritten_of_not_prepared (h : ¬ Prepared initIo) :
    keyWritten (.init displayAlias random initIo) = none := by
  unfold keyWritten
  dsimp only
  split
  · next hkeys hdata hperms hdir => exact absurd ⟨hkeys, hdata, hperms⟩ h
  · rfl

theorem keyWritten_of_prepared (h : Prepared initIo) : keyWritten (.init displayAlias random initIo) =
    match initIo.save.keyDir with
    | .error _ => none
    | .ok () => initIo.save.privKey.contents random.val := by
  obtain ⟨hkeys, hdata, hperms⟩ := h
  unfold keyWritten
  dsimp only
  rw [hkeys, hdata, hperms]
  cases initIo.save.keyDir with
  | error e => rfl
  | ok dir => rfl

/-- `identity import` writes its own file only. -/
theorem runImport_files {keyfile : Except String Bytes} {w : FileWrite} {permissions : Except String Unit} :
    (runImport crypto keyfile w permissions files).2 =
      match keyfile with
      | .error _ => files
      | .ok keyData =>
        if keyData.length < 32 then files else files.write Files.signingKeyFile keyData w := by
  unfold runImport
  cases keyfile with
  | error e => rfl
  | ok keyData =>
      dsimp only
      split_ifs
      · rfl
      · split
        · rfl
        · rfl
        · split
          · rfl
          · rfl

variable {command : IdentityCommand}

/-- The other commands write nothing. -/
theorem run_files_of_reader (hinit : ∀ displayAlias random io, command ≠ .init displayAlias random io)
    (himport : ∀ keyfile w permissions, command ≠ .importKey keyfile w permissions) :
    (command.run crypto env files).2 = files := by
  cases command with
  | init displayAlias random io => exact absurd rfl (hinit displayAlias random io)
  | importKey keyfile w permissions => exact absurd rfl (himport keyfile w permissions)
  | showKey =>
      unfold run
      dsimp only
      rcases loadIdentity crypto files with _ | e | id
      · rfl
      · rfl
      · rfl
  | generateKey random keysDir =>
      unfold run
      dsimp only
      cases keysDir with
      | error e => rfl
      | ok dir => rfl
  | load =>
      unfold run
      dsimp only
      cases IdentityAdapter.loadFromDisk crypto env files with
      | error e => rfl
      | ok id => rfl

/-- **The key after a command**: the one that was there, or the one that is written. -/
theorem lookup_run_priv : ((command.run crypto env files).2).lookup Files.privKeyFile =
    (files.lookup Files.privKeyFile).or command.keyWritten := by
  cases command with
  | init displayAlias random io =>
      unfold run
      dsimp only
      cases hkey : files.lookup Files.privKeyFile with
      | some bytes =>
          rw [runInit_of_blocked (Or.inl (by rw [hkey]; rfl)), hkey]
          rfl
      | none =>
          by_cases hprepared : Prepared io
          · have hconfig : Files.privKeyFile ≠ Files.configFile := by decide
            rw [lookup_runInit hkey hprepared hconfig, lookup_saveToDisk (by decide) (by decide),
              keyWritten_of_prepared hprepared]
            cases io.save.keyDir with
            | error e => exact hkey
            | ok dir =>
                dsimp only
                rw [Files.lookup_write, hkey, Option.or_none]
                rfl
          · rw [runInit_of_blocked (Or.inr hprepared), hkey, keyWritten_of_not_prepared hprepared]
            rfl
  | importKey keyfile w permissions =>
      have hne : Files.privKeyFile ≠ Files.signingKeyFile := by decide
      have hnone : (IdentityCommand.importKey keyfile w permissions).keyWritten = none := rfl
      unfold run
      dsimp only
      rw [hnone, Option.or_none, runImport_files]
      cases keyfile with
      | error e => rfl
      | ok keyData =>
          dsimp only
          split_ifs
          · rfl
          · exact Files.lookup_write_of_ne hne keyData w
  | showKey => rw [run_files_of_reader (by simp) (by simp)]; exact (Option.or_none).symm
  | generateKey random keysDir => rw [run_files_of_reader (by simp) (by simp)]; exact (Option.or_none).symm
  | load => rw [run_files_of_reader (by simp) (by simp)]; exact (Option.or_none).symm

/-- **The imported key after a command**: the one that is imported, or the one that was there. -/
theorem lookup_run_signing : ((command.run crypto env files).2).lookup Files.signingKeyFile =
    command.keyImported.or (files.lookup Files.signingKeyFile) := by
  cases command with
  | init displayAlias random io =>
      have hnone : (IdentityCommand.init displayAlias random io).keyImported = none := rfl
      unfold run
      dsimp only
      rw [hnone, Option.none_or]
      by_cases hblocked : (files.lookup Files.privKeyFile).isSome = true ∨ ¬ Prepared io
      · rw [runInit_of_blocked hblocked]
      · rw [not_or, not_not, Bool.not_eq_true, Option.isSome_eq_false_iff, Option.isNone_iff_eq_none] at hblocked
        have hne : Files.signingKeyFile ≠ Files.privKeyFile := by decide
        rw [lookup_runInit hblocked.1 hblocked.2 (by decide), lookup_saveToDisk (by decide) (by decide)]
        cases io.save.keyDir with
        | error e => rfl
        | ok dir => exact Files.lookup_write_of_ne hne _ _
  | importKey keyfile w permissions =>
      unfold run
      dsimp only
      rw [runImport_files]
      cases keyfile with
      | error e => rfl
      | ok keyData =>
          unfold keyImported
          dsimp only
          split_ifs
          · rfl
          · exact Files.lookup_write _ _ _ _
  | showKey => rw [run_files_of_reader (by simp) (by simp)]; rfl
  | generateKey random keysDir => rw [run_files_of_reader (by simp) (by simp)]; rfl
  | load => rw [run_files_of_reader (by simp) (by simp)]; rfl

/-! ### Runs of commands -/

/-- A profile without a key has nothing that belongs to one. -/
theorem Belongs.eq_none (h : Belongs crypto files) (hkey : files.lookup Files.privKeyFile = none) :
    files.lookup Files.pubKeyFile = none ∧ files.lookup Files.fpFile = none := by
  refine ⟨Option.eq_none_iff_forall_ne_some.2 fun bytes hbytes => ?_,
    Option.eq_none_iff_forall_ne_some.2 fun bytes hbytes => ?_⟩
  · obtain ⟨signingKey, hsome, -⟩ := h.pubKey bytes hbytes
    rw [hkey] at hsome
    cases hsome
  · obtain ⟨signingKey, hsome, -, -⟩ := h.fp bytes hbytes
    rw [hkey] at hsome
    cases hsome

/-- **A command keeps the files together.** -/
theorem belongs_run (h : Belongs crypto files) : Belongs crypto (command.run crypto env files).2 := by
  cases command with
  | init displayAlias random io =>
      by_cases hblocked : (files.lookup Files.privKeyFile).isSome = true ∨ ¬ Prepared io
      · have hfiles : ((IdentityCommand.init displayAlias random io).run crypto env files).2 = files :=
          runInit_of_blocked hblocked
        rw [hfiles]
        exact h
      · rw [not_or, not_not, Bool.not_eq_true, Option.isSome_eq_false_iff, Option.isNone_iff_eq_none] at hblocked
        obtain ⟨hkey, hprepared⟩ := hblocked
        obtain ⟨hpub, hfp⟩ := h.eq_none hkey
        have hconfig : Files.configFile ∉ [Files.privKeyFile, Files.pubKeyFile, Files.fpFile] := by decide
        exact (belongs_saveToDisk hpub hfp).congr fun path hpath =>
          lookup_runInit hkey hprepared (ne_of_mem_of_not_mem hpath hconfig)
  | importKey keyfile w permissions =>
      have hsigning : Files.signingKeyFile ∉ [Files.privKeyFile, Files.pubKeyFile, Files.fpFile] := by decide
      have hfiles : ((IdentityCommand.importKey keyfile w permissions).run crypto env files).2 = _ := runImport_files
      rw [hfiles]
      cases keyfile with
      | error e => exact h
      | ok keyData =>
          dsimp only
          split_ifs
          · exact h
          · exact h.congr fun path hpath =>
              Files.lookup_write_of_ne (ne_of_mem_of_not_mem hpath hsigning) keyData w
  | showKey => rw [run_files_of_reader (by simp) (by simp)]; exact h
  | generateKey random keysDir => rw [run_files_of_reader (by simp) (by simp)]; exact h
  | load => rw [run_files_of_reader (by simp) (by simp)]; exact h

variable {commands : List IdentityCommand}

theorem after_append (earlier later : List IdentityCommand) (files : Files) :
    after crypto env (earlier ++ later) files = after crypto env later (after crypto env earlier files) :=
  List.foldl_append ..

theorem belongs_after (h : Belongs crypto files) : Belongs crypto (after crypto env commands files) := by
  induction commands generalizing files with
  | nil => exact h
  | cons command commands ih => exact ih (belongs_run h)

/-- **The key after some commands**: the one that was there, or the first that is written. -/
theorem lookup_after_priv : (after crypto env commands files).lookup Files.privKeyFile =
    (files.lookup Files.privKeyFile).or (commands.filterMap keyWritten).head? := by
  induction commands generalizing files with
  | nil => exact Option.or_none.symm
  | cons command commands ih =>
      have hstep : after crypto env (command :: commands) files =
        after crypto env commands (command.run crypto env files).2 := rfl
      rw [hstep, ih, lookup_run_priv, Option.or_assoc]
      cases hwritten : command.keyWritten with
      | none => rw [List.filterMap_cons_none hwritten, Option.none_or]
      | some bytes => rw [List.filterMap_cons_some hwritten, Option.some_or, List.head?_cons]

/-- **The imported key after some commands**: the last that is imported, or the one that was there. -/
theorem lookup_after_signing : (after crypto env commands files).lookup Files.signingKeyFile =
    (commands.filterMap keyImported).getLast?.or (files.lookup Files.signingKeyFile) := by
  induction commands using List.reverseRecOn with
  | nil => rfl
  | append_singleton commands command ih =>
      have hstep : after crypto env (commands ++ [command]) files =
        (command.run crypto env (after crypto env commands files)).2 := after_append commands [command] files
      rw [hstep, lookup_run_signing, ih, ← Option.or_assoc, List.filterMap_append, List.getLast?_append]
      congr 2
      cases himported : command.keyImported with
      | none => rw [List.filterMap_cons_none himported, List.filterMap_nil, List.getLast?_nil]
      | some bytes => rw [List.filterMap_cons_some himported, List.filterMap_nil, List.getLast?_singleton]

/-- An identity is loaded from a whole key. -/
theorem run_load {id : IdentityAdapter} : (run crypto env .load files).1 = .loaded id ↔
    ∃ signingKey : Bytes32, files.lookup Files.privKeyFile = some signingKey.val ∧
      id = IdentityAdapter.ofKey crypto signingKey := by
  have hload : IdentityAdapter.loadFromDisk crypto env files = .ok id ↔
      ∃ signingKey : Bytes32, files.lookup Files.privKeyFile = some signingKey.val ∧
        id = IdentityAdapter.ofKey crypto signingKey := by
    unfold IdentityAdapter.loadFromDisk
    cases files.lookup Files.privKeyFile with
    | none => simp
    | some keyBytes => simp only [IdentityAdapter.fromKey_eq_ok, Option.some.injEq]
  have hrun : (run crypto env .load files).1 = .loaded id ↔
      IdentityAdapter.loadFromDisk crypto env files = .ok id := by
    simp only [run]
    cases IdentityAdapter.loadFromDisk crypto env files with
    | error e => simp
    | ok id' => simp
  exact hrun.trans hload

/-- **The key is written once.**  In a new profile, after whatever commands, with whatever failures of the file
system: the key is the first that `init` wrote, whole or cut; the public key and the fingerprint belong to it; an
identity that could be loaded is loaded again after any further commands; and the file of `identity import` holds
the last key that was imported, which nothing but `identity show` reads. -/
theorem identity_run (earlier later : List IdentityCommand) :
    Belongs crypto (after crypto env (earlier ++ later) ∅) ∧
    (after crypto env (earlier ++ later) ∅).lookup Files.privKeyFile =
      ((earlier ++ later).filterMap keyWritten).head? ∧
    (after crypto env (earlier ++ later) ∅).lookup Files.signingKeyFile =
      ((earlier ++ later).filterMap keyImported).getLast? ∧
    ∀ id, (run crypto env .load (after crypto env earlier ∅)).1 = .loaded id →
      (run crypto env .load (after crypto env (earlier ++ later) ∅)).1 = .loaded id := by
  have hempty : ∀ path, (∅ : Files).lookup path = none := fun path => Finmap.lookup_empty path
  refine ⟨belongs_after (belongs_of_none (hempty _) (hempty _)), ?_, ?_, fun id hload => ?_⟩
  · rw [lookup_after_priv, hempty, Option.none_or]
  · rw [lookup_after_signing, hempty, Option.or_none]
  · obtain ⟨signingKey, hkey, hid⟩ := run_load.1 hload
    refine run_load.2 ⟨signingKey, ?_, hid⟩
    rw [after_append, lookup_after_priv, hkey, Option.some_or]

end IdentityCommand

end Sanctum
