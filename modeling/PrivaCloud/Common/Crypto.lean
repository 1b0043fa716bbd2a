import PrivaCloud.AskUser.AnswerText
import PrivaCloud.Framework.Cipher

/-!
# Encryption of credentials

`encrypt_value` and `decrypt_value` keep credentials in a column that also holds plain text; a prefix
tells the two apart. Which key encrypts and which ones decrypt is read from the environment once in the
life of a process.
-/

namespace PrivaCloud.Common

open Framework AskUser

/-- A code point of a `str`; one that is no character is half of a surrogate pair. -/
inductive CodePoint
  | char (c : Char)
  | surrogate (code : Fin 2048)
  deriving DecidableEq

abbrev Str := List CodePoint

/-- A `str` without surrogates. -/
def ofText (text : Text) : Str := text.map CodePoint.char

inductive CryptoError
  | runtimeError (message : String)
  | valueError
  | unicodeEncodeError
  | unicodeDecodeError

/-- The characters, if there is no surrogate. -/
def chars? : Str → Option Text
  | [] => some []
  | .char c :: str => (chars? str).map (c :: ·)
  | .surrogate _ :: _ => none

def encode (str : Str) : Except CryptoError ByteArray :=
  match chars? str with
  | some text => .ok (String.ofList text).toUTF8
  | none => .error .unicodeEncodeError

def decode (bytes : ByteArray) : Except CryptoError Str :=
  match String.fromUTF8? bytes with
  | some text => .ok (ofText text.toList)
  | none => .error .unicodeDecodeError

variable {str : Str}

private theorem chars?_eq_some {text : Text} : chars? str = some text ↔ str = ofText text := by
  constructor
  · intro h
    induction str generalizing text with
    | nil =>
      cases h
      rfl
    | cons point str ih =>
      cases point with
      | surrogate code => cases h
      | char c =>
        obtain ⟨rest, hrest, rfl⟩ := Option.map_eq_some_iff.mp h
        rw [ih hrest]
        rfl
  · rintro rfl
    induction text with
    | nil => rfl
    | cons c text ih =>
      have hcons : ofText (c :: text) = .char c :: ofText text := rfl
      rw [hcons, chars?, ih]
      rfl

private theorem encode_ofText (text : Text) : encode (ofText text) = .ok (String.ofList text).toUTF8 := by
  rw [encode, chars?_eq_some.mpr rfl]

variable {bytes : ByteArray}

private theorem encode_eq_ok (h : encode str = .ok bytes) :
    ∃ text, str = ofText text ∧ bytes = (String.ofList text).toUTF8 := by
  unfold encode at h
  split at h <;> cases h
  rename_i text htext
  exact ⟨text, chars?_eq_some.mp htext, rfl⟩

private theorem decode_toUTF8 (text : Text) : decode (String.ofList text).toUTF8 = .ok (ofText text) := by
  have hvalid : String.fromUTF8? (String.ofList text).toUTF8 = some (String.ofList text) :=
    dif_pos (String.ofList text).isValidUTF8
  rw [decode, hvalid]
  simp

private theorem decode_of_encode (h : encode str = .ok bytes) :
    decode bytes = .ok str := by
  obtain ⟨text, rfl, rfl⟩ := encode_eq_ok h
  exact decode_toUTF8 text

/-- `str.isspace` of a code point -/
def isSpace : CodePoint → Bool
  | .char c => pySpace c
  | .surrogate _ => false

/-- `str.strip()` -/
def stripped (str : Str) : Str := (str.dropWhile isSpace).rdropWhile isSpace

def encPrefix : Str := ofText "enc:v1:".toList

def devFallbackKey : Str := ofText "sbKkbgCHmtelZW8UO56q5q1JF-s4Uqs_qVPRylym1xY=".toList

def misconfigured : String :=
  "PRIVA_FERNET_KEY is not set (or is malformed). Refusing to encrypt: the only " ++
  "remaining key is the dev fallback, which is published in this repository, so " ++
  "the ciphertext would be readable by anyone with the source. Provision a " ++
  "K8s-Secret-sourced key, or set PRIVA_ALLOW_DEV_FERNET=1 for local development."

/-- `cryptography.fernet`. The nonce is the time and the random block of a token. -/
structure Fernet (Key Nonce : Type) extends Cipher Key Nonce ByteArray ByteArray where
  /-- `Fernet(key.encode())`, none when it raises `ValueError` -/
  load : Str → Option Key

/-- What the library documents: authenticated encryption, whose tokens are text; the fallback key is a
well-formed key. -/
structure Fernet.Documented {Key Nonce : Type} (fernet : Fernet Key Nonce) : Prop where
  authentic : fernet.Authentic
  isText : ∀ key nonce plain, ∃ text, fernet.encrypt key nonce plain = (String.ofList text).toUTF8
  loadsDev : (fernet.load devFallbackKey).isSome

/-- `MultiFernet` refuses an empty list. -/
structure MultiFernet (Key : Type) where
  first : Key
  others : List Key

def MultiFernet.keys {Key : Type} (multi : MultiFernet Key) : List Key := multi.first :: multi.others

def multiFernet {Key : Type} : List Key → Except CryptoError (MultiFernet Key)
  | [] => .error .valueError
  | first :: others => .ok ⟨first, others⟩

/-- `os.environ`, fixed for the life of a process -/
structure Environment where
  /-- `PRIVA_FERNET_KEY` -/
  fernetKey : Option Str := none
  /-- `PRIVA_FERNET_KEYS_OLD` -/
  fernetKeysOld : Option Str := none
  /-- `PRIVA_ALLOW_DEV_FERNET` -/
  allowDevFernet : Option Str := none

/-- `str.lower()` as far as it matters: no letter outside ASCII becomes one of those asked for. -/
def lowered : CodePoint → CodePoint
  | .char c => .char c.toLower
  | .surrogate code => .surrogate code

def allowDev (env : Environment) : Bool :=
  (stripped (env.allowDevFernet.getD [])).map lowered ∈
    [ofText "1".toList, ofText "true".toList, ofText "yes".toList]

/-- The entries of `PRIVA_FERNET_KEYS_OLD`, not stripped. -/
def oldEntries (env : Environment) : List Str := (env.fernetKeysOld.getD []).splitOn (.char ',')

section Keys

variable {Key Nonce : Type} (fernet : Fernet Key Nonce) (env : Environment)

/-- `_load` -/
def loadKey (key : Str) : Option Key := fernet.load (stripped key)

/-- The key that an entry of the environment spells, if it spells one. -/
def readKey (entry : Str) : Option Key :=
  if stripped entry = [] then none else loadKey fernet (stripped entry)

def primaryRaw : Str := stripped (env.fernetKey.getD [])

def primary : Option Key := readKey fernet (env.fernetKey.getD [])

/-- `Fernet(_DEV_FALLBACK_KEY.encode())`, which nothing guards -/
def devFernet : Except CryptoError Key :=
  match fernet.load devFallbackKey with
  | some key => .ok key
  | none => .error .valueError

/-- The keys collected, and the texts `seen`. -/
abbrev Collected (Key : Type) := List Key × List Str

/-- The key that stands first, before those that only decrypt. -/
def encrypting : Except CryptoError (Collected Key) :=
  match primary fernet env with
  | some key => .ok ([key], [primaryRaw env])
  | none =>
    if allowDev env then (devFernet fernet).map fun key => ([key], [devFallbackKey])
    else .ok ([], [])

def addOld (collected : Collected Key) (entry : Str) : Collected Key :=
  let old := stripped entry
  if old = [] ∨ old ∈ collected.2 then collected
  else
    match loadKey fernet old with
    | some key => (collected.1 ++ [key], collected.2 ++ [old])
    | none => collected

def addDev (collected : Collected Key) : Except CryptoError (List Key) :=
  if devFallbackKey ∈ collected.2 then .ok collected.1
  else (devFernet fernet).map fun key => collected.1 ++ [key]

/-- `_build`, without what it logs -/
def build : Except CryptoError (MultiFernet Key × Bool) := do
  let collected ← encrypting fernet env
  let fernets ← addDev fernet ((oldEntries env).foldl (addOld fernet) collected)
  let multi ← multiFernet fernets
  return (multi, (primary fernet env).isSome)

def assertEncryptionKeyConfigured : Except CryptoError Unit := do
  let (_, primaryIsReal) ← build fernet env
  if !primaryIsReal && !allowDev env then throw (.runtimeError misconfigured)

def isEncrypted (value : Str) : Bool := encPrefix.isPrefixOf value

def encryptValue (nonce : Nonce) : Option Str → Except CryptoError (Option Str)
  | none => .ok none
  | some plaintext =>
    if isEncrypted plaintext then .ok (some plaintext)
    else do
      let (multi, primaryIsReal) ← build fernet env
      if !primaryIsReal && !allowDev env then throw (.runtimeError misconfigured)
      let token ← decode (fernet.encrypt multi.first nonce (← encode plaintext))
      return some (encPrefix ++ token)

def decryptValue : Option Str → Except CryptoError (Option Str)
  | none => .ok none
  | some stored =>
    if !isEncrypted stored then .ok (some stored)
    else do
      let (multi, _) ← build fernet env
      let token ← encode (stored.drop encPrefix.length)
      match fernet.decryptAny multi.keys token with
      | some plain => return some (← decode plain)
      -- `InvalidToken`
      | none => return none

/-- `PRIVA_FERNET_KEY` or `PRIVA_FERNET_KEYS_OLD` has the key among its entries. -/
def Holds (key : Key) : Prop :=
  ∃ entry ∈ env.fernetKey.getD [] :: oldEntries env, readKey fernet entry = some key

def ListedOnlyOld (key : Key) : Prop :=
  (∃ entry ∈ oldEntries env, readKey fernet entry = some key) ∧ primary fernet env ≠ some key

def CiphertextUnder (key : Key) (value : Str) : Prop :=
  ∃ nonce plain, isEncrypted value ∧ encode (value.drop encPrefix.length) = .ok (fernet.encrypt key nonce plain)

end Keys

section Building

variable {Key Nonce : Type} {fernet : Fernet Key Nonce} {env : Environment}

def Seen (fernet : Fernet Key Nonce) (collected : Collected Key) : Prop :=
  ∀ old ∈ collected.2, ∀ key, loadKey fernet old = some key → key ∈ collected.1

variable {collected : Collected Key}

private theorem Seen.addOld (h : Seen fernet collected) (entry : Str) :
    Seen fernet (addOld fernet collected entry) ∧ collected.1 <+: (Common.addOld fernet collected entry).1 ∧
      ∀ key, readKey fernet entry = some key → key ∈ (Common.addOld fernet collected entry).1 := by
  unfold Common.addOld
  by_cases hskip : stripped entry = [] ∨ stripped entry ∈ collected.2
  · rw [if_pos hskip]
    refine ⟨h, List.prefix_rfl, fun key hkey => ?_⟩
    rcases hskip with hempty | hseen
    · rw [readKey, if_pos hempty] at hkey
      cases hkey
    · rw [readKey] at hkey
      split at hkey
      · cases hkey
      · exact h _ hseen key hkey
  · rw [if_neg hskip]
    rw [not_or] at hskip
    cases hload : loadKey fernet (stripped entry) with
    | none =>
      refine ⟨h, List.prefix_rfl, fun key hkey => ?_⟩
      rw [readKey, if_neg hskip.1, hload] at hkey
      cases hkey
    | some loaded =>
      refine ⟨?_, List.prefix_append _ _, fun key hkey => ?_⟩
      · intro old hold key hkey
        rcases List.mem_append.mp hold with hold | hold
        · exact List.mem_append_left _ (h old hold key hkey)
        · rw [List.mem_singleton.mp hold, hload] at hkey
          cases hkey
          exact List.mem_append_right _ (List.mem_singleton_self _)
      · rw [readKey, if_neg hskip.1, hload] at hkey
        cases hkey
        exact List.mem_append_right _ (List.mem_singleton_self _)

private theorem Seen.foldl (h : Seen fernet collected) (entries : List Str) :
    Seen fernet (entries.foldl (Common.addOld fernet) collected) ∧
      collected.1 <+: (entries.foldl (Common.addOld fernet) collected).1 ∧
      ∀ entry ∈ entries, ∀ key, readKey fernet entry = some key →
        key ∈ (entries.foldl (Common.addOld fernet) collected).1 := by
  induction entries generalizing collected with
  | nil => exact ⟨h, List.prefix_rfl, fun entry hentry => absurd hentry List.not_mem_nil⟩
  | cons entry entries ih =>
    obtain ⟨hseen, hprefix, hentry⟩ := h.addOld entry
    obtain ⟨hlast, hrest, hentries⟩ := ih hseen
    refine ⟨hlast, hprefix.trans hrest, fun other hother key hkey => ?_⟩
    rcases List.mem_cons.mp hother with rfl | hother
    · exact hrest.subset (hentry key hkey)
    · exact hentries other hother key hkey

private theorem loadKey_devFallbackKey : loadKey fernet devFallbackKey = fernet.load devFallbackKey := by
  have hstripped : stripped devFallbackKey = devFallbackKey := by decide
  rw [loadKey, hstripped]

/-- What stands first, and is the only key so far. -/
theorem encrypting_eq (h : fernet.Documented) : ∃ collected, encrypting fernet env = .ok collected ∧
    Seen fernet collected ∧ (∀ key, primary fernet env = some key → collected.1 = [key]) ∧
      (primary fernet env = none → allowDev env = true →
        ∃ key, fernet.load devFallbackKey = some key ∧ collected.1 = [key]) := by
  obtain ⟨dev, hdev⟩ := Option.isSome_iff_exists.mp h.loadsDev
  unfold encrypting
  cases hprimary : primary fernet env with
  | some key =>
    refine ⟨_, rfl, ?_, fun key' hkey' => by cases hkey'; rfl, fun hnone => by cases hnone⟩
    intro old hold key' hkey'
    rw [List.mem_singleton.mp hold] at hkey'
    rw [primary, readKey] at hprimary
    split at hprimary
    · cases hprimary
    · rw [primaryRaw, hprimary] at hkey'
      cases hkey'
      exact List.mem_singleton_self _
  | none =>
    by_cases hallow : allowDev env = true
    · refine ⟨([dev], [devFallbackKey]), ?_, ?_, fun key hkey => (by cases hkey), fun _ _ => ⟨dev, hdev, rfl⟩⟩
      · simp only [hallow, if_true, devFernet, hdev]
        rfl
      · intro old hold key hkey
        rw [List.mem_singleton.mp hold, loadKey_devFallbackKey, hdev] at hkey
        cases hkey
        exact List.mem_singleton_self _
    · refine ⟨([], []), ?_, fun old hold => absurd hold List.not_mem_nil, fun key hkey => (by cases hkey),
        fun _ hallowed => absurd hallowed hallow⟩
      simp only [hallow]
      rfl

private theorem addDev_eq (h : fernet.Documented) (hseen : Seen fernet collected) :
    ∃ fernets, addDev fernet collected = .ok fernets ∧ collected.1 <+: fernets ∧ fernets ≠ [] := by
  obtain ⟨dev, hdev⟩ := Option.isSome_iff_exists.mp h.loadsDev
  unfold addDev
  by_cases hmem : devFallbackKey ∈ collected.2
  · rw [if_pos hmem]
    refine ⟨_, rfl, List.prefix_rfl, List.ne_nil_of_mem (hseen _ hmem dev ?_)⟩
    rw [loadKey_devFallbackKey, hdev]
  · refine ⟨collected.1 ++ [dev], ?_, List.prefix_append _ _, by simp⟩
    rw [if_neg hmem, devFernet, hdev]
    rfl

/-- Every process has all its keys; the primary one, if there is one, encrypts. -/
theorem build_eq (h : fernet.Documented) (env : Environment) : ∃ multi,
    build fernet env = .ok (multi, (primary fernet env).isSome) ∧
      (∀ key, Holds fernet env key → key ∈ multi.keys) ∧
      (∀ key, primary fernet env = some key → multi.first = key) ∧
      (primary fernet env = none → allowDev env = true → fernet.load devFallbackKey = some multi.first) := by
  obtain ⟨collected, hencrypting, hseen, hprimary, hallow⟩ := @encrypting_eq _ _ fernet env h
  obtain ⟨hlast, hprefix, hentries⟩ := hseen.foldl (oldEntries env)
  obtain ⟨fernets, haddDev, hfernets, hne⟩ := addDev_eq h hlast
  have hall := hprefix.trans hfernets
  obtain ⟨first, others, rfl⟩ := List.exists_cons_of_ne_nil hne
  refine ⟨⟨first, others⟩, ?_, ?_, ?_, ?_⟩
  · simp only [build, hencrypting, haddDev, multiFernet, bind, Except.bind]
    rfl
  · rintro key ⟨entry, hentry, hkey⟩
    rcases List.mem_cons.mp hentry with rfl | hentry
    · rw [hprimary key hkey] at hall
      exact hall.subset (List.mem_singleton_self _)
    · exact hfernets.subset (hentries entry hentry key hkey)
  · intro key hkey
    rw [hprimary key hkey] at hall
    exact (List.cons_prefix_cons.mp hall).1.symm
  · intro hnone hallowed
    obtain ⟨key, hkey, hcollected⟩ := hallow hnone hallowed
    rw [hcollected] at hall
    rw [hkey, (List.cons_prefix_cons.mp hall).1]

private theorem encryptValue_eq_ok (h : fernet.Documented) {nonce : Nonce} {plaintext : Str} {value : Option Str}
    (hplain : isEncrypted plaintext = false)
    (hok : encryptValue fernet env nonce (some plaintext) = .ok value) : ∃ multi bytes text,
      build fernet env = .ok (multi, (primary fernet env).isSome) ∧
      ((primary fernet env).isSome = true ∨ allowDev env = true) ∧ encode plaintext = .ok bytes ∧
      fernet.encrypt multi.first nonce bytes = (String.ofList text).toUTF8 ∧
      value = some (encPrefix ++ ofText text) := by
  obtain ⟨multi, hbuild, -⟩ := build_eq h env
  simp only [encryptValue, hplain, hbuild, bind, Except.bind, Bool.false_eq_true, if_false] at hok
  by_cases hconfigured : (!(primary fernet env).isSome && !allowDev env) = true
  · rw [if_pos hconfigured] at hok
    cases hok
  · rw [if_neg hconfigured] at hok
    cases hbytes : encode plaintext with
    | error e =>
      rw [hbytes] at hok
      cases hok
    | ok bytes =>
      obtain ⟨text, htext⟩ := h.isText multi.first nonce bytes
      simp only [hbytes, htext, decode_toUTF8, pure, Except.pure] at hok
      cases hok
      refine ⟨multi, bytes, text, hbuild, ?_, rfl, htext, rfl⟩
      rw [Bool.and_eq_true, Bool.not_eq_true', Bool.not_eq_true'] at hconfigured
      by_cases hreal : (primary fernet env).isSome = true
      · exact Or.inl hreal
      · refine Or.inr (Bool.of_not_eq_false fun hdev => hconfigured ⟨?_, hdev⟩)
        exact Bool.eq_false_of_not_eq_true hreal

private theorem assertEncryptionKeyConfigured_iff (h : fernet.Documented) (env : Environment) (nonce : Nonce)
    (text : Text) (hplain : isEncrypted (ofText text) = false) :
    assertEncryptionKeyConfigured fernet env = .ok () ↔
      ∃ value, encryptValue fernet env nonce (some (ofText text)) = .ok value := by
  obtain ⟨multi, hbuild, -⟩ := build_eq h env
  simp only [assertEncryptionKeyConfigured, encryptValue, hplain, hbuild, encode_ofText, bind, Except.bind,
    Bool.false_eq_true, if_false]
  by_cases hconfigured : (!(primary fernet env).isSome && !allowDev env) = true
  · rw [if_pos hconfigured, if_pos hconfigured]
    constructor
    · intro hgate
      cases hgate
    · rintro ⟨value, hvalue⟩
      cases hvalue
  · obtain ⟨token, htoken⟩ := h.isText multi.first nonce (String.ofList text).toUTF8
    rw [if_neg hconfigured, if_neg hconfigured, htoken, decode_toUTF8]
    exact ⟨fun _ => ⟨_, rfl⟩, fun _ => rfl⟩

private theorem decryptValue_of_mem (h : fernet.Documented) {key : Key} {nonce : Nonce} {plaintext : Str}
    {text : Text} (hbytes : encode plaintext = .ok bytes)
    (htext : fernet.encrypt key nonce bytes = (String.ofList text).toUTF8) {later : Environment}
    {multi : MultiFernet Key} {real : Bool} (hbuild : build fernet later = .ok (multi, real))
    (hkey : key ∈ multi.keys) :
    decryptValue fernet later (some (encPrefix ++ ofText text)) = .ok (some plaintext) := by
  have hopens : fernet.decryptAny multi.keys (String.ofList text).toUTF8 = some bytes := by
    rw [← htext]
    exact h.authentic.decryptAny_encrypt hkey nonce bytes
  have hprefix : isEncrypted (encPrefix ++ ofText text) = true := by
    rw [isEncrypted, List.isPrefixOf_iff_prefix]
    exact List.prefix_append _ _
  simp only [decryptValue, hprefix, hbuild, bind, Except.bind, Bool.not_true, Bool.false_eq_true, if_false,
    List.drop_left, encode_ofText, hopens, decode_of_encode hbytes]
  rfl

end Building

variable {Key Nonce : Type} {fernet : Fernet Key Nonce}

/-- A text that does not look encrypted comes back in every process that holds its key, and without the
opt-in only the primary key encrypts it. -/
theorem credential_kept (h : fernet.Documented) {env : Environment} {nonce : Nonce} {plaintext : Str}
    {value : Option Str} (hplain : isEncrypted plaintext = false)
    (hok : encryptValue fernet env nonce (some plaintext) = .ok value) :
    decryptValue fernet env value = .ok (some plaintext) ∧
      (∀ key later, primary fernet env = some key → Holds fernet later key →
        decryptValue fernet later value = .ok (some plaintext)) ∧
      (allowDev env = false → ∀ text ∈ value, ∀ key, CiphertextUnder fernet key text →
        ¬ ListedOnlyOld fernet env key ∧
          (fernet.load devFallbackKey = some key → primary fernet env = some key)) := by
  obtain ⟨multi, bytes, text, hbuild, hconfigured, hbytes, htext, rfl⟩ := encryptValue_eq_ok h hplain hok
  obtain ⟨multi', hbuild', -, hfirst, -⟩ := build_eq h env
  rw [hbuild] at hbuild'
  cases hbuild'
  refine ⟨decryptValue_of_mem h hbytes htext hbuild List.mem_cons_self, ?_, ?_⟩
  · intro key later hkey hholds
    obtain ⟨multiLater, hbuildLater, hkeys, -⟩ := build_eq h later
    rw [hfirst key hkey] at htext
    exact decryptValue_of_mem h hbytes htext hbuildLater (hkeys key hholds)
  · rintro hallow _ ⟨⟩ key ⟨nonce', plain, -, hunder⟩
    rw [List.drop_left, encode_ofText, ← htext] at hunder
    have htoken := Except.ok.inj hunder
    -- a token opens under one key only, and here that is the primary one
    have hkey : multi.first = key := by
      have hopens := h.authentic.opens multi.first nonce bytes
      rw [htoken] at hopens
      exact h.authentic.key_unique hopens
    have hreal : (primary fernet env).isSome = true := by
      rw [hallow] at hconfigured
      exact hconfigured.resolve_right Bool.false_ne_true
    obtain ⟨key', hkey'⟩ := Option.isSome_iff_exists.mp hreal
    have hprimary : primary fernet env = some key := by
      rw [← hkey, hfirst key' hkey', hkey']
    exact ⟨fun hold => hold.2 hprimary, fun _ => hprimary⟩

inductive SampleKey
  | dev
  | own
  deriving DecidableEq

def ownKey : Str := ofText "QUFBQUFBQUFBQUFBQUFBQUFBQUFBQUFBQUFBQUFBQUE=".toList

def SampleKey.mark : SampleKey → Char
  | .dev => 'd'
  | .own => 'o'

/-- A token is the mark of the key and one character for each byte. -/
def sampleFernet : Fernet SampleKey Unit where
  load key := if key = devFallbackKey then some .dev else if key = ownKey then some .own else none
  encrypt key _ plain :=
    (String.ofList (key.mark :: plain.data.toList.map fun b => Char.ofNat b.toNat)).toUTF8
  decrypt key token :=
    match String.fromUTF8? token with
    | none => none
    | some text =>
      match text.toList with
      | [] => none
      | c :: cs => if c = key.mark then some ⟨(cs.map fun c => UInt8.ofNat c.toNat).toArray⟩ else none

private theorem sampleFernet_decrypt (key : SampleKey) (c : Char) (cs : List Char) :
    sampleFernet.decrypt key (String.ofList (c :: cs)).toUTF8 =
      if c = key.mark then some ⟨(cs.map fun c => UInt8.ofNat c.toNat).toArray⟩ else none := by
  have hvalid : String.fromUTF8? (String.ofList (c :: cs)).toUTF8 = some (String.ofList (c :: cs)) :=
    dif_pos (String.ofList (c :: cs)).isValidUTF8
  simp only [sampleFernet, hvalid, String.toList_ofList]

private theorem sampleFernet_documented : sampleFernet.Documented where
  authentic := by
    refine ⟨fun key nonce plain => ?_, fun key key' nonce plain hne => ?_⟩
    · have hbytes : ((fun c : Char => UInt8.ofNat c.toNat) ∘ fun b : UInt8 => Char.ofNat b.toNat) = id := by
        funext b
        have hlt := b.toNat_lt
        have hvalid : Nat.isValidChar b.toNat := Or.inl (by omega)
        have hchar : (Char.ofNat b.toNat).toNat = b.toNat := by
          rw [Char.ofNat, dif_pos hvalid]
          rfl
        rw [Function.comp_apply, hchar, UInt8.ofNat_toNat, id]
      refine (sampleFernet_decrypt key _ _).trans ?_
      rw [if_pos rfl, List.map_map, hbytes, List.map_id, Array.toArray_toList]
    · refine (sampleFernet_decrypt key' _ _).trans (if_neg ?_)
      cases key <;> cases key' <;> first | exact absurd rfl hne | decide
  isText key nonce plain := ⟨_, rfl⟩
  loadsDev := by decide

/-- The key has been retired, among entries that are malformed, empty or repeated. -/
def rotatedEnv : Environment where
  fernetKeysOld := some (ofText "not-a-key, ,".toList ++ ownKey ++ ofText ", ".toList ++ ownKey)

theorem credential_kept_rotatedEnv :
    ∃ value, encryptValue sampleFernet { fernetKey := some ownKey } () (some (ofText "sk-1".toList)) = .ok value ∧
      decryptValue sampleFernet rotatedEnv value = .ok (some (ofText "sk-1".toList)) := by
  have hgate : assertEncryptionKeyConfigured sampleFernet { fernetKey := some ownKey } = .ok () := by
    rfl
  obtain ⟨value, hvalue⟩ :=
    (assertEncryptionKeyConfigured_iff sampleFernet_documented _ () "sk-1".toList (by decide)).mp hgate
  have hholds : Holds sampleFernet rotatedEnv .own := by
    unfold Holds
    decide
  exact ⟨value, hvalue, (credential_kept sampleFernet_documented (by decide) hvalue).2.1 .own rotatedEnv
    (by decide) hholds⟩

-- A text that looks encrypted is stored as it is, and nothing decrypts it.
theorem prefixed_not_kept : sampleFernet.Documented ∧
    encryptValue sampleFernet { fernetKey := some ownKey } () (some (ofText "enc:v1:x".toList)) =
      .ok (some (ofText "enc:v1:x".toList)) ∧
    decryptValue sampleFernet { fernetKey := some ownKey } (some (ofText "enc:v1:x".toList)) ≠
      .ok (some (ofText "enc:v1:x".toList)) := by
  refine ⟨sampleFernet_documented, by rfl, fun hback => ?_⟩
  obtain ⟨multi, hbuild, -⟩ := build_eq sampleFernet_documented { fernetKey := some ownKey }
  have hnone : sampleFernet.decryptAny multi.keys (String.ofList ['x']).toUTF8 = none := by
    rw [Cipher.decryptAny, List.findSome?_eq_none_iff]
    intro key _
    rw [sampleFernet_decrypt]
    cases key <;> decide
  have hprefixed : isEncrypted (ofText "enc:v1:x".toList) = true := by decide
  have hrest : (ofText "enc:v1:x".toList).drop encPrefix.length = ofText ['x'] := by decide
  simp only [decryptValue, hprefixed, hbuild, bind, Except.bind, Bool.not_true, Bool.false_eq_true, if_false,
    hrest, encode_ofText, hnone] at hback
  cases hback

end PrivaCloud.Common
