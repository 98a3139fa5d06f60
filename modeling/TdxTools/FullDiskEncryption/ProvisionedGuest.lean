import TdxTools.FullDiskEncryption.Agent

namespace TdxTools.FullDiskEncryption.ProvisionedGuest

open Python.ByteString Python.Exec Python.Text Python.Path Python.Files
open VarEnroll.Guid VarEnroll.Variable VarEnroll.Store VarEnroll.Codec VarEnroll.VariableMap
open VarEnroll.Operations VarEnroll.Refinement VarEnroll.EditOrder TdReport EnrollVars Agent

/-- The firmware gives access to these variables: `name-guid` names the variable
with this name and vendor, and data that the buffer has room for is read whole. -/
structure Shows (efivar : Efivar) (m : Variables) : Prop where
  names : ∀ name guid, isGuid (some guid) = true → guid.length = 36 →
    efivar.fromStr (name ++ '-' :: guid) = some ⟨name, guid⟩
  reads : ∀ name guid g e buffer, str2guid (some guid) = .ok g → m (str2blob name, g) = some e →
    e.data.length ≤ buffer.length → efivar.read ⟨name, guid⟩ buffer =
      some (e.data.length, e.data ++ buffer.drop e.data.length)

section Reading

variable {efivar : Efivar} {m : Variables}

theorem range_data (data rest : Bytes) : range (data ++ rest) 0 data.length = some data := by
  rw [range_of_le (Nat.zero_le _) (by simp), slice_zero, List.take_left]

theorem has_shown (h : Shows efivar m) (p : Provision) {e : Entry} (he : m p.key = some e)
    (hlen : e.data.length ≤ 4096) : efivar.Has (p.name ++ '-' :: p.guid) e.data := by
  have hread := h.reads p.name p.guid p.key.2 e (List.replicate 4096 0) p.str2guid_guid he
    (by rw [List.length_replicate]; exact hlen)
  exact ⟨_, _, _, h.names p.name p.guid p.isGuid_guid p.length_guid, hread, range_data e.data _⟩

end Reading

def kbsUrl (dataFile : Str) : Provision :=
  { name := "KBSURL".toList, guid := "0d9b4a60-e0bf-4a66-b9b1-db1b98f87770".toList, dataFile
    ascii := by decide, not_key := by decide, isGuid_guid := by decide, length_guid := rfl }

def kbsCert (dataFile : Str) : Provision :=
  { name := "KBSCert".toList, guid := "d2bf05a0-f7f8-41b6-b0ff-ad1a31c34d37".toList, dataFile
    ascii := by decide, not_key := by decide, isGuid_guid := by decide, length_guid := rfl }

def kbsUserData (dataFile : Str) : Provision :=
  { name := "KBSUserData".toList, guid := "732284dd-70c4-472a-aa45-1ffda02caf74".toList, dataFile
    ascii := by decide, not_key := by decide, isGuid_guid := by decide, length_guid := rfl }

/-- The request of an agent in a guest whose FD the script has provisioned. With
the client that comes with the agent to make it is all that is done; with a client
in its place that answers, the device is activated with the key of the response. -/
theorem provisioned_guest_asks {env : Env} (hwrite : ∀ c, env.writeFault c = .none)
    (hreads : ∀ c, env.readFails c = false) (n : Nat) {path : Str} {w : World} {fd : Bytes}
    {m : Variables} (hfd : w.content env path = some fd) (hm : Represents fd m)
    {ps : List Provision} {data : Provision → Bytes}
    (hapart : ∀ p ∈ ps, resolve env.cwd p.dataFile ≠ resolve env.cwd path)
    (hdata : ∀ p ∈ ps, w.content env p.dataFile = some (data p))
    (hkeys : (ps.map Provision.key).Nodup)
    (hroom : ∀ p ∈ ps, p.key.1.length < 2 ^ 32 ∧ (data p).length < 2 ^ 32)
    (hfits : RunsFit env (n + 1) (ps.map (·.params path)) w) {urlFile certFile userFile : Str}
    (hurl : kbsUrl urlFile ∈ ps) (hcert : kbsCert certFile ∈ ps) (huser : kbsUserData userFile ∈ ps)
    (hlen : ∀ p ∈ [kbsUrl urlFile, kbsCert certFile, kbsUserData userFile], (data p).length ≤ 4096) :
    ∃ fd' m', (mainAll env (n + 1) (ps.map (·.call path)) w).content env path = some fd' ∧
      Represents fd' m' ∧
      ∀ (agent : FdeAgent) (request : KeyRequest) (root name : Str), Shows agent.efivar m' →
        decodeUtf8 (data (kbsUrl urlFile)) = some request.url →
        agent.fromSlice (data (kbsUserData userFile)) = some { keyid := request.keyid } →
        (agent.attest.attGetReport (List.replicate 64 0)).isSome →
        agent.attest.attGetQuote (List.replicate 64 0) = some (some request.quote) →
        (agent.kbs = retreiveKeyFromKbs →
          agent.main root name = ([.askKbs request], .error dummyClient)) ∧
        ∀ response key, agent.kbs request = .ok response →
          agent.decode response.wrappedKey = some key → key.length = KEY_LENGTH →
          agent.disk.opens root = true → agent.disk.luks2 root = true →
          agent.main root name =
            ([.askKbs request, .activate root (deviceName root name) key], .ok ()) := by
  obtain ⟨fd', m', hfd', hm', hwritten, -⟩ :=
    provisioned_map hwrite hreads n hfd hm hapart hdata hkeys hroom hfits
  refine ⟨fd', m', hfd', hm', ?_⟩
  intro agent request root name hshows hutf hslice hreport hquote
  have hhas : ∀ p ∈ ps, (data p).length ≤ 4096 →
      agent.efivar.Has (p.name ++ '-' :: p.guid) (data p) := by
    intro p hp hle
    have hsame := Provision.data_over (data p) (m p.key)
    have hshown := has_shown hshows p (hwritten p hp) (hsame.symm ▸ hle)
    rwa [hsame] at hshown
  simp only [List.forall_mem_cons] at hlen
  obtain ⟨hurlLen, hcertLen, huserLen, -⟩ := hlen
  have hasks : agent.Asks request :=
    ⟨⟨_, hhas _ hurl hurlLen, hutf⟩, ⟨_, hhas _ hcert hcertLen⟩, ⟨_, hhas _ huser huserLen, hslice⟩,
      hreport, hquote⟩
  refine ⟨fun hkbs => main_of_dummy root name hkbs hasks, ?_⟩
  intro response key hkbs hdecode hkey hopens hluks
  exact main_of_releases name ⟨hasks, ⟨response, hkbs, hdecode⟩, hkey, hopens, hluks⟩

/-- A firmware that gives access to just these variables. -/
def efivarOf (m : Variables) : Efivar where
  fromStr s :=
    let guid := s.drop (s.length - 36)
    if isGuid (some guid) = true then some ⟨s.take (s.length - 37), guid⟩ else none
  read name buffer := do
    let g ← (str2guid (some name.vendor)).value
    let e ← m (str2blob name.name, g)
    if e.data.length ≤ buffer.length then
      some (e.data.length, e.data ++ buffer.drop e.data.length)
    else none

theorem shows_efivarOf (m : Variables) : Shows (efivarOf m) m := by
  constructor
  · intro name guid hguid hlen
    have hwhole : (name ++ '-' :: guid).length = name.length + 37 := by simp [hlen]
    have hdash : name.length + 37 - 36 = (name ++ ['-']).length := by simp
    have hsplit : name ++ '-' :: guid = name ++ ['-'] ++ guid := by simp
    have hdrop : (name ++ '-' :: guid).drop ((name ++ '-' :: guid).length - 36) = guid := by
      rw [hwhole, hdash, hsplit, List.drop_left]
    have htake : (name ++ '-' :: guid).take ((name ++ '-' :: guid).length - 37) = name := by
      rw [hwhole, Nat.add_sub_cancel, List.take_left]
    simp only [efivarOf, hdrop, htake, hguid, if_true]
  · intro name guid g e buffer hg he hlen
    simp only [efivarOf, hg, Outcome.value, he, Option.bind_eq_bind, Option.bind_some]
    exact if_pos hlen

def guestWorld : World :=
  { files := fun place =>
      if place = [['o']] then some { content := blankImage 244, ctime := 0 }
      else if place = [['u']] then some { content := [0x6b], ctime := 0 }
      else if place = [['c']] then some { content := [1], ctime := 0 }
      else if place = [['d']] then some { content := [2], ctime := 0 }
      else none
    clock := 0 }

def guestVariables : List Provision := [kbsUrl ['u'], kbsCert ['c'], kbsUserData ['d']]

theorem represents_guestImage : Represents (blankImage 244) (fun _ => none) :=
  ⟨blankVolume 244, blankStore 244, [], ⟨by decide +kernel, by decide +kernel, by decide +kernel,
    by decide +kernel, by decide +kernel, by decide +kernel⟩, ⟨244, by decide +kernel⟩,
    List.nodup_nil, rfl⟩

theorem guestVariables_fit :
    RunsFit .reliable 1 (guestVariables.map (·.params ['o'])) guestWorld :=
  ⟨listFits_sound (by decide +kernel), dbxFileWhole_of_ne rfl (by decide),
    listFits_sound (by decide +kernel), dbxFileWhole_of_ne rfl (by decide),
    listFits_sound (by decide +kernel), dbxFileWhole_of_ne rfl (by decide), trivial⟩

def guestRequest : KeyRequest := { url := ['k'], keyid := ['i', 'd'], quote := [3] }

def guestKey : Bytes := List.replicate KEY_LENGTH 7

def guestAttest : TdxAttest :=
  { attGetReport := fun _ => some ⟨List.replicate 1024 0, List.length_replicate⟩
    attGetQuote := fun _ => some (some [3]) }

def guestUserData (slice : Bytes) : Option UserData :=
  if slice = [2] then some { keyid := ['i', 'd'] } else none

def guestAgent (m : Variables) : FdeAgent :=
  { efivar := efivarOf m
    fromSlice := guestUserData
    attest := guestAttest
    kbs := fun request =>
      if request = guestRequest then .ok { wrappedKey := ['a'], wrappedSwk := ['b'] }
      else .error .library
    decode := fun text => if text = ['a'] then some guestKey else none
    disk := { opens := fun _ => true, luks2 := fun _ => true, activate := fun _ _ _ => true } }

theorem provisioned_guest_asks_sample : ∃ fd' m',
    (mainAll .reliable 1 (guestVariables.map (·.call ['o'])) guestWorld).content .reliable ['o'] =
      some fd' ∧ Represents fd' m' ∧
    { guestAgent m' with kbs := retreiveKeyFromKbs }.main "/dev/vda1".toList [] =
      ([.askKbs guestRequest], .error dummyClient) ∧
    (guestAgent m').main "/dev/vda1".toList [] =
      ([.askKbs guestRequest, .activate "/dev/vda1".toList "vda1".toList guestKey], .ok ()) := by
  let data : Provision → Bytes := fun p => (guestWorld.content .reliable p.dataFile).getD []
  obtain ⟨fd', m', hfd', hm', hasks⟩ := provisioned_guest_asks (fun _ => rfl) (fun _ => rfl) 0
    (by decide +kernel) represents_guestImage
    (show ∀ p ∈ guestVariables, _ from by decide +kernel)
    (show ∀ p ∈ guestVariables, guestWorld.content .reliable p.dataFile = some (data p) from by
      decide +kernel)
    (by decide +kernel) (by decide +kernel) guestVariables_fit
    (show kbsUrl ['u'] ∈ guestVariables from by simp [guestVariables])
    (show kbsCert ['c'] ∈ guestVariables from by simp [guestVariables])
    (show kbsUserData ['d'] ∈ guestVariables from by simp [guestVariables]) (by decide +kernel)
  have hslice : guestUserData (data (kbsUserData ['d'])) = some { keyid := ['i', 'd'] } := by
    decide +kernel
  refine ⟨fd', m', hfd', hm', ?_, ?_⟩
  · exact (hasks { guestAgent m' with kbs := retreiveKeyFromKbs } guestRequest "/dev/vda1".toList []
      (shows_efivarOf m') (by decide +kernel) hslice rfl rfl).1 rfl
  · exact (hasks (guestAgent m') guestRequest "/dev/vda1".toList [] (shows_efivarOf m')
      (by decide +kernel) hslice rfl rfl).2 { wrappedKey := ['a'], wrappedSwk := ['b'] } guestKey
      rfl rfl List.length_replicate rfl rfl

end TdxTools.FullDiskEncryption.ProvisionedGuest
