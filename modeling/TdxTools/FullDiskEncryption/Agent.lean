import TdxTools.FullDiskEncryption.EnrollVars
import TdxTools.FullDiskEncryption.TdReport

namespace TdxTools.FullDiskEncryption.Agent

open Python.ByteString Python.Exec Python.Text Python.Path Python.Files
open VarEnroll.Guid VarEnroll.Variable VarEnroll.Store VarEnroll.VariableMap VarEnroll.Operations
open VarEnroll.Refinement TdReport EnrollVars

def DEFAULT_KBS_URL_NAME : Str := "KBSURL-0d9b4a60-e0bf-4a66-b9b1-db1b98f87770".toList
def DEFAULT_KBS_CERT_NAME : Str := "KBSCert-d2bf05a0-f7f8-41b6-b0ff-ad1a31c34d37".toList
def DEFAULT_KBS_USER_DATA_NAME : Str := "KBSUserData-732284dd-70c4-472a-aa45-1ffda02caf74".toList

/-- How a function fails: with an error that it returns, with a panic, or with
what a library says of its own. -/
inductive Failure
  | error (text : Str)
  | panic (text : Str)
  | library
  deriving DecidableEq, Repr

def orFail {α : Type} (failure : Failure) : Option α → Except Failure α
  | some a => .ok a
  | none => .error failure

/-- `.expect(text)`. -/
def expect {α : Type} (text : Str) : Option α → Except Failure α := orFail (.panic text)

/-- A variable of the firmware by its name and the GUID of its vendor. -/
structure VariableName where
  name : Str
  vendor : Str
  deriving DecidableEq, Repr

/-- The crate `efivar`. A read gives the size of the data and the buffer after it. -/
structure Efivar where
  fromStr : Str → Option VariableName
  read : VariableName → Bytes → Option (Nat × Bytes)

structure UserData where
  keyid : Str
  deriving DecidableEq, Repr

structure KBSParams where
  url : Bytes
  certification : Bytes
  userData : UserData
  deriving DecidableEq, Repr

section Params

variable (efivar : Efivar)

/-- The firmware has this data under the name, for a buffer of 4096 bytes. -/
def Efivar.Has (name : Str) (data : Bytes) : Prop :=
  ∃ variableName size bytes, efivar.fromStr name = some variableName ∧
    efivar.read variableName (List.replicate 4096 0) = some (size, bytes) ∧
    range bytes 0 size = some data

/-- One of the three reads of `retrieve_kbs_params`, into a buffer of 4096 bytes. -/
def readVariable (name what : Str) : Except Failure (Nat × Bytes) := do
  let variableName ← expect ("Failed to create variable name ".toList ++ what) (efivar.fromStr name)
  expect ("Failed to read variable ".toList ++ what) (efivar.read variableName (List.replicate 4096 0))

/-- `bytes[0..size]`. -/
def upTo (bytes : Bytes) (size : Nat) : Except Failure Bytes :=
  orFail .library (range bytes 0 size)

def retrieveKbsParams (fromSlice : Bytes → Option UserData) : Except Failure KBSParams := do
  let (urlDataSize, urlBytes) ← readVariable efivar DEFAULT_KBS_URL_NAME "url".toList
  let (certDataSize, certBytes) ← readVariable efivar DEFAULT_KBS_CERT_NAME "cert".toList
  let (userDataSize, userDataBytes) ← readVariable efivar DEFAULT_KBS_USER_DATA_NAME
    "user data".toList
  let userDataSlice ← upTo userDataBytes userDataSize
  let userData ← orFail .library (fromSlice userDataSlice)
  let url ← upTo urlBytes urlDataSize
  let certification ← upTo certBytes certDataSize
  pure { url, certification, userData }

end Params

/-- The library `tdx_attest`; `none` is any result but success. -/
structure TdxAttest where
  attGetReport : Bytes → Option ReportBytes
  attGetQuote : Bytes → Option (Option Bytes)

def retrieveQuote (attest : TdxAttest) : Except Failure Bytes := do
  let reportData := List.replicate 64 0
  let tdxReport ← orFail (.error "Failed to get the report.".toList) (attest.attGetReport reportData)
  let _ ← orFail .library (TDReport.new tdxReport)
  let quote ← orFail (.error "Failed to get the quote.".toList) (attest.attGetQuote reportData)
  expect "Failed to parse the quote".toList quote

/-- What is sent to the key broker. -/
structure KeyRequest where
  url : Str
  keyid : Str
  quote : Bytes
  deriving DecidableEq, Repr

structure RetrieveKeyResponse where
  wrappedKey : Str
  wrappedSwk : Str
  deriving DecidableEq, Repr

def dummyClient : Failure :=
  .error ("Panic: this is a dummy client of the KBS!\n ".toList ++
    "Please consult your KBS provider and implement it!".toList)

/-- The client of the key broker that comes with the agent. -/
def retreiveKeyFromKbs (_request : KeyRequest) : Except Failure RetrieveKeyResponse :=
  .error dummyClient

def KEY_LENGTH : Nat := 256

/-- The library `cryptsetup`: which devices can be opened and loaded as LUKS2. -/
structure Cryptsetup where
  opens : Str → Bool
  luks2 : Str → Bool
  activate : Str → Str → Bytes → Bool

/-- What the agent does to the outside. -/
inductive Action
  | askKbs (request : KeyRequest)
  | activate (root name : Str) (key : Bytes)
  deriving DecidableEq, Repr

/-- The name that is given, or the last part of the path of the device. -/
def deviceName (root name : Str) : Str :=
  if name = [] then (root.splitOn '/').getLast?.getD [] else name

/-- The result of the activation is dropped. -/
def cryptSetup (disk : Cryptsetup) (root name : Str) (key : Bytes) : Except Failure Action := do
  let _ ← expect "FDE: root deivce is not available".toList (if disk.opens root then some () else none)
  let _ ← expect "FDE: Loading LUKS2 failed.".toList (if disk.luks2 root then some () else none)
  pure (.activate root (deviceName root name) key)

/-- The agent with the libraries that it calls, and with the client of a key
broker: its own, or one that was put in its place. -/
structure FdeAgent where
  efivar : Efivar
  fromSlice : Bytes → Option UserData
  attest : TdxAttest
  kbs : KeyRequest → Except Failure RetrieveKeyResponse
  decode : Str → Option Bytes
  disk : Cryptsetup

namespace FdeAgent

variable (self : FdeAgent)

/-- The first two steps of `main`, and the request that comes of them. -/
def request : Except Failure KeyRequest := do
  let secret ← retrieveKbsParams self.efivar self.fromSlice
  let url ← orFail .library (decodeUtf8 secret.url)
  let quote ← retrieveQuote self.attest
  pure { url, keyid := secret.userData.keyid, quote }

/-- The key in the response. -/
def diskKey (response : RetrieveKeyResponse) : Except Failure Bytes := do
  let key ← expect "Analyze Base64 Key Failed!".toList (self.decode response.wrappedKey)
  if key.length ≠ KEY_LENGTH then .error (.panic "FDE Key not Support!".toList) else pure key

/-- `main`, with what it has done to the outside. -/
def main (root name : Str) : List Action × Except Failure Unit :=
  match self.request with
  | .error failure => ([], .error failure)
  | .ok request =>
    match self.kbs request >>= self.diskKey >>= cryptSetup self.disk root name with
    | .error failure => ([.askKbs request], .error failure)
    | .ok activate => ([.askKbs request, activate], .ok ())

/-- The request has the URL and the key id of the firmware's variables, and the
quote of the library. The certificate and a report have to be there as well. -/
structure Asks (agent : FdeAgent) (request : KeyRequest) : Prop where
  url_eq : ∃ data, agent.efivar.Has DEFAULT_KBS_URL_NAME data ∧ decodeUtf8 data = some request.url
  certified : ∃ data, agent.efivar.Has DEFAULT_KBS_CERT_NAME data
  keyid_eq : ∃ data, agent.efivar.Has DEFAULT_KBS_USER_DATA_NAME data ∧
    agent.fromSlice data = some { keyid := request.keyid }
  reported : (agent.attest.attGetReport (List.replicate 64 0)).isSome
  quote_eq : agent.attest.attGetQuote (List.replicate 64 0) = some (some request.quote)

/-- The broker answers the request with a key for the device. -/
structure Releases (agent : FdeAgent) (root : Str) (request : KeyRequest) (key : Bytes) : Prop where
  asks : agent.Asks request
  answer : ∃ response,
    agent.kbs request = .ok response ∧ agent.decode response.wrappedKey = some key
  length_key : key.length = KEY_LENGTH
  opens : agent.disk.opens root = true
  luks2 : agent.disk.luks2 root = true

end FdeAgent

section Main

variable {self : FdeAgent}

theorem orFail_eq_ok {α : Type} {failure : Failure} {x : Option α} {a : α} :
    orFail failure x = .ok a ↔ x = some a := by
  cases x <;> simp [orFail]

theorem bind_eq_ok {α β : Type} {x : Except Failure α} {f : α → Except Failure β} {b : β} :
    x >>= f = .ok b ↔ ∃ a, x = .ok a ∧ f a = .ok b := by
  cases x with
  | error failure => simp [Bind.bind, Except.bind]
  | ok a => simp [Bind.bind, Except.bind]

theorem has_iff {efivar : Efivar} {name : Str} (what : Str) {bytes : Bytes} :
    efivar.Has name bytes ↔ ∃ size buffer, readVariable efivar name what = .ok (size, buffer) ∧
      upTo buffer size = .ok bytes := by
  simp only [Efivar.Has, readVariable, bind_eq_ok, expect, orFail_eq_ok, upTo]
  constructor
  · rintro ⟨variableName, size, buffer, hname, hread, hdata⟩
    exact ⟨size, buffer, ⟨variableName, hname, hread⟩, hdata⟩
  · rintro ⟨size, buffer, ⟨variableName, hname, hread⟩, hdata⟩
    exact ⟨variableName, size, buffer, hname, hread, hdata⟩

theorem retrieveKbsParams_eq_ok {efivar : Efivar} {fromSlice : Bytes → Option UserData}
    {secret : KBSParams} : retrieveKbsParams efivar fromSlice = .ok secret ↔
      efivar.Has DEFAULT_KBS_URL_NAME secret.url ∧
      efivar.Has DEFAULT_KBS_CERT_NAME secret.certification ∧
      ∃ bytes, efivar.Has DEFAULT_KBS_USER_DATA_NAME bytes ∧
        fromSlice bytes = some secret.userData := by
  rw [has_iff "url".toList, has_iff "cert".toList]
  constructor
  · intro h
    obtain ⟨⟨urlSize, urlBytes⟩, hurl, h⟩ := bind_eq_ok.mp h
    obtain ⟨⟨certSize, certBytes⟩, hcert, h⟩ := bind_eq_ok.mp h
    obtain ⟨⟨userSize, userBytes⟩, huser, h⟩ := bind_eq_ok.mp h
    obtain ⟨slice, hslice, h⟩ := bind_eq_ok.mp h
    obtain ⟨userData, hdata, h⟩ := bind_eq_ok.mp h
    obtain ⟨url, hurlData, h⟩ := bind_eq_ok.mp h
    obtain ⟨cert, hcertData, h⟩ := bind_eq_ok.mp h
    cases h
    exact ⟨⟨urlSize, urlBytes, hurl, hurlData⟩, ⟨certSize, certBytes, hcert, hcertData⟩,
      slice, (has_iff "user data".toList).mpr ⟨userSize, userBytes, huser, hslice⟩,
      orFail_eq_ok.mp hdata⟩
  · rintro ⟨⟨urlSize, urlBytes, hurl, hurlData⟩, ⟨certSize, certBytes, hcert, hcertData⟩,
      slice, huser, hdata⟩
    obtain ⟨userSize, userBytes, huser, hslice⟩ := (has_iff "user data".toList).mp huser
    refine bind_eq_ok.mpr ⟨_, hurl, bind_eq_ok.mpr ⟨_, hcert, bind_eq_ok.mpr ⟨_, huser, ?_⟩⟩⟩
    refine bind_eq_ok.mpr ⟨_, hslice, bind_eq_ok.mpr ⟨_, orFail_eq_ok.mpr hdata, ?_⟩⟩
    exact bind_eq_ok.mpr ⟨_, hurlData, bind_eq_ok.mpr ⟨_, hcertData, rfl⟩⟩

theorem retrieveQuote_eq_ok {attest : TdxAttest} {quote : Bytes} :
    retrieveQuote attest = .ok quote ↔ (attest.attGetReport (List.replicate 64 0)).isSome ∧
      attest.attGetQuote (List.replicate 64 0) = some (some quote) := by
  constructor
  · intro h
    obtain ⟨report, hreport, h⟩ := bind_eq_ok.mp h
    obtain ⟨parsed, -, h⟩ := bind_eq_ok.mp h
    obtain ⟨answer, hanswer, h⟩ := bind_eq_ok.mp h
    rw [orFail_eq_ok.mp hreport, orFail_eq_ok.mp hanswer, orFail_eq_ok.mp h]
    exact ⟨rfl, rfl⟩
  · rintro ⟨hreport, hquote⟩
    obtain ⟨report, hreport⟩ := Option.isSome_iff_exists.mp hreport
    obtain ⟨parsed, hparsed, -⟩ := TDReport.new_eq report
    refine bind_eq_ok.mpr ⟨report, orFail_eq_ok.mpr hreport, ?_⟩
    refine bind_eq_ok.mpr ⟨parsed, orFail_eq_ok.mpr hparsed, ?_⟩
    exact bind_eq_ok.mpr ⟨some quote, orFail_eq_ok.mpr hquote, rfl⟩

theorem request_eq_ok {request : KeyRequest} :
    self.request = .ok request ↔ self.Asks request := by
  constructor
  · intro h
    obtain ⟨secret, hsecret, h⟩ := bind_eq_ok.mp h
    obtain ⟨url, hurl, h⟩ := bind_eq_ok.mp h
    obtain ⟨quote, hquote, h⟩ := bind_eq_ok.mp h
    cases h
    obtain ⟨hurlData, hcert, bytes, huser, hslice⟩ := retrieveKbsParams_eq_ok.mp hsecret
    obtain ⟨hreport, hquote⟩ := retrieveQuote_eq_ok.mp hquote
    exact ⟨⟨_, hurlData, orFail_eq_ok.mp hurl⟩, ⟨_, hcert⟩, ⟨bytes, huser, hslice⟩, hreport, hquote⟩
  · rintro ⟨⟨urlBytes, hurlData, hurl⟩, ⟨cert, hcert⟩, ⟨bytes, huser, hslice⟩, hreport, hquote⟩
    have hsecret : retrieveKbsParams self.efivar self.fromSlice =
        .ok { url := urlBytes, certification := cert, userData := { keyid := request.keyid } } :=
      retrieveKbsParams_eq_ok.mpr ⟨hurlData, hcert, bytes, huser, hslice⟩
    refine bind_eq_ok.mpr ⟨_, hsecret, bind_eq_ok.mpr ⟨_, orFail_eq_ok.mpr hurl, ?_⟩⟩
    exact bind_eq_ok.mpr ⟨_, retrieveQuote_eq_ok.mpr ⟨hreport, hquote⟩, rfl⟩

theorem diskKey_eq_ok {response : RetrieveKeyResponse} {key : Bytes} :
    self.diskKey response = .ok key ↔
      self.decode response.wrappedKey = some key ∧ key.length = KEY_LENGTH := by
  rw [FdeAgent.diskKey, bind_eq_ok]
  constructor
  · rintro ⟨key', hdecode, hkey⟩
    split at hkey
    · cases hkey
    · next hlen =>
      cases hkey
      exact ⟨orFail_eq_ok.mp hdecode, not_not.mp hlen⟩
  · rintro ⟨hdecode, hlen⟩
    exact ⟨key, orFail_eq_ok.mpr hdecode, if_neg (not_not_intro hlen)⟩

theorem orFail_test {failure : Failure} {b : Bool} :
    orFail failure (if b then some () else none) = .ok () ↔ b = true := by
  cases b <;> simp [orFail]

theorem cryptSetup_eq_ok {disk : Cryptsetup} {root name : Str} {key : Bytes} {action : Action} :
    cryptSetup disk root name key = .ok action ↔
      disk.opens root = true ∧ disk.luks2 root = true ∧
        action = .activate root (deviceName root name) key := by
  rw [cryptSetup, bind_eq_ok]
  constructor
  · rintro ⟨_, hopens, hrest⟩
    obtain ⟨_, hluks, hend⟩ := bind_eq_ok.mp hrest
    exact ⟨orFail_test.mp hopens, orFail_test.mp hluks, (Except.ok.inj hend).symm⟩
  · rintro ⟨hopens, hluks, rfl⟩
    exact ⟨(), orFail_test.mpr hopens, bind_eq_ok.mpr ⟨(), orFail_test.mpr hluks, rfl⟩⟩

theorem main_of_not_asks (root name : Str) (h : ∀ request, ¬ self.Asks request) :
    ∃ failure, self.main root name = ([], .error failure) := by
  rw [FdeAgent.main]
  cases hrequest : self.request with
  | error failure => exact ⟨failure, rfl⟩
  | ok request => exact absurd (request_eq_ok.mp hrequest) (h request)

theorem main_of_asks (root name : Str) {request : KeyRequest} (h : self.Asks request) :
    self.main root name =
      match self.kbs request >>= self.diskKey >>= cryptSetup self.disk root name with
      | .error failure => ([.askKbs request], .error failure)
      | .ok activate => ([.askKbs request, activate], .ok ()) := by
  rw [FdeAgent.main, request_eq_ok.mpr h]

theorem main_of_releases {root : Str} {request : KeyRequest} {key : Bytes} (name : Str)
    (h : self.Releases root request key) : self.main root name =
      ([.askKbs request, .activate root (deviceName root name) key], .ok ()) := by
  obtain ⟨response, hkbs, hdecode⟩ := h.answer
  have hkey : self.kbs request >>= self.diskKey >>= cryptSetup self.disk root name =
      .ok (.activate root (deviceName root name) key) :=
    bind_eq_ok.mpr ⟨key, bind_eq_ok.mpr ⟨response, hkbs, diskKey_eq_ok.mpr ⟨hdecode, h.length_key⟩⟩,
      cryptSetup_eq_ok.mpr ⟨h.opens, h.luks2, rfl⟩⟩
  rw [main_of_asks root name h.asks, hkey]

theorem main_of_not_releases {root : Str} {request : KeyRequest} (name : Str)
    (hasks : self.Asks request) (h : ∀ key, ¬ self.Releases root request key) :
    ∃ failure, self.main root name = ([.askKbs request], .error failure) := by
  rw [main_of_asks root name hasks]
  cases hrest : self.kbs request >>= self.diskKey >>= cryptSetup self.disk root name with
  | error failure => exact ⟨failure, rfl⟩
  | ok action =>
    obtain ⟨key, hkey, hsetup⟩ := bind_eq_ok.mp hrest
    obtain ⟨response, hkbs, hdisk⟩ := bind_eq_ok.mp hkey
    obtain ⟨hdecode, hlen⟩ := diskKey_eq_ok.mp hdisk
    obtain ⟨hopens, hluks, -⟩ := cryptSetup_eq_ok.mp hsetup
    exact absurd ⟨hasks, ⟨response, hkbs, hdecode⟩, hlen, hopens, hluks⟩ (h key)

theorem Asks.unique {request request' : KeyRequest} (h : self.Asks request)
    (h' : self.Asks request') : request = request' :=
  Except.ok.inj ((request_eq_ok.mpr h).symm.trans (request_eq_ok.mpr h'))

/-- The agent asks the broker for the one request that comes of the variables of
the firmware and the quote. It activates a device only under the key that was
released for this request, and reports success just then: whether the volume
takes the key is not asked. -/
theorem activates_iff (self : FdeAgent) (root name : Str) :
    (∀ request, .askKbs request ∈ (self.main root name).1 ↔ self.Asks request) ∧
    (∀ root' name' key, .activate root' name' key ∈ (self.main root name).1 ↔
      root' = root ∧ name' = deviceName root name ∧ ∃ request, self.Releases root request key) ∧
    ((self.main root name).2 = .ok () ↔ ∃ request key, self.Releases root request key) := by
  by_cases hasks : ∃ request, self.Asks request
  · obtain ⟨request, hasks⟩ := hasks
    have hask : ∀ request', request' = request ↔ self.Asks request' := by
      intro request'
      constructor
      · rintro rfl
        exact hasks
      · exact fun h => Asks.unique h hasks
    by_cases h : ∃ key, self.Releases root request key
    · obtain ⟨key, hkey⟩ := h
      rw [main_of_releases name hkey]
      refine ⟨fun request' => ?_, fun root' name' key' => ?_, fun _ => ⟨request, key, hkey⟩, fun _ => rfl⟩
      · simp [hask]
      · rw [List.mem_cons, List.mem_singleton, Action.activate.injEq]
        constructor
        · rintro (hask | ⟨rfl, rfl, rfl⟩)
          · cases hask
          · exact ⟨rfl, rfl, request, hkey⟩
        · rintro ⟨rfl, rfl, request', hkey'⟩
          obtain ⟨response, hkbs, hdecode⟩ := hkey.answer
          obtain ⟨response', hkbs', hdecode'⟩ := hkey'.answer
          obtain rfl := Asks.unique hkey.asks hkey'.asks
          obtain rfl := Except.ok.inj (hkbs.symm.trans hkbs')
          exact .inr ⟨rfl, rfl, Option.some.inj (hdecode'.symm.trans hdecode)⟩
    · have hno : ∀ key, ¬ self.Releases root request key := fun key hkey => h ⟨key, hkey⟩
      have hnone : ∀ request' key, ¬ self.Releases root request' key := by
        intro request' key hkey
        exact hno key (Asks.unique hkey.asks hasks ▸ hkey)
      obtain ⟨failure, hmain⟩ := main_of_not_releases name hasks hno
      rw [hmain]
      simp [hask, hnone]
  · have hno : ∀ request, ¬ self.Asks request := fun request h => hasks ⟨request, h⟩
    have hnone : ∀ request key, ¬ self.Releases root request key :=
      fun request key hkey => hno request hkey.asks
    obtain ⟨failure, hmain⟩ := main_of_not_asks root name hno
    rw [hmain]
    simp [hno, hnone]

theorem main_of_dummy (root name : Str) {request : KeyRequest} (hkbs : self.kbs = retreiveKeyFromKbs)
    (h : self.Asks request) :
    self.main root name = ([.askKbs request], .error dummyClient) := by
  rw [main_of_asks root name h, hkbs]
  rfl

end Main

end TdxTools.FullDiskEncryption.Agent
