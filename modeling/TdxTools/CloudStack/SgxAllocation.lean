import TdxTools.Python.Decimal
import TdxTools.Python.Dictionary

namespace TdxTools.CloudStack.SgxAllocation

open Python.Text Python.Decimal Python.Dictionary Python.Exec

def EPC : Str := "sgx.intel.com/epc".toList
def ENCLAVE : Str := "sgx.intel.com/enclave".toList

/-- What a container asks for and may have, as the API gives it. -/
structure Resources where
  requests : Option (Dict Str Str)
  limits : Option (Dict Str Str)

/-- The request for one resource, added to a total. -/
def addRequest (requests : Dict Str Str) (resource : Str) (total : Int) : Outcome Int :=
  match get? requests resource with
  | none => .ok total
  | some quantity =>
    if ['k'] <:+ quantity then do
      let n ← .ofOption .valueError (int10 quantity.dropLast)
      .ok (total + n * 1024)
    else do
      let n ← .ofOption .valueError (int10 quantity)
      .ok (total + n)

/-- The truth value of a map, or of `None`. -/
def Truthy (items : Option (Dict Str Str)) : Prop := items.getD [] ≠ []

instance (items : Option (Dict Str Str)) : Decidable (Truthy items) :=
  inferInstanceAs (Decidable (_ ≠ _))

structure Totals where
  enclave : Int := 0
  epc : Int := 0
  deriving DecidableEq, Repr

def addContainer (totals : Totals) (resources : Resources) : Outcome Totals :=
  if Truthy resources.requests ∨ Truthy resources.limits then do
    let requests ← .ofOption .attributeError resources.requests
    let epc ← addRequest requests EPC totals.epc
    let enclave ← addRequest requests ENCLAVE totals.enclave
    .ok { enclave, epc }
  else .ok totals

/-- `get_total_allocated_sgx` on the containers of all pods. -/
def getTotalAllocatedSgx (pods : List (List Resources)) : Outcome Totals :=
  pods.foldlM (fun totals containers => containers.foldlM addContainer totals) {}

inductive Suffix
  | one
  | k
  | M
  | G
  deriving DecidableEq, Repr

def Suffix.text : Suffix → Str
  | one => []
  | k => ['k']
  | M => ['M']
  | G => ['G']

def Suffix.factor : Suffix → Int
  | one => 1
  | k => 1000
  | M => 1000000
  | G => 1000000000

/-- A quantity as the API server writes it. -/
structure Quantity where
  number : Int
  suffix : Suffix
  deriving DecidableEq, Repr

namespace Quantity

def text (q : Quantity) : Str := decimalInt q.number ++ q.suffix.text

def value (q : Quantity) : Int := q.number * q.suffix.factor

end Quantity

/-- Requests whose SGX items are quantities. -/
structure Requests where
  items : Dict Str Str
  epc : Option Quantity
  enclave : Option Quantity
  epc_item : get? items EPC = epc.map Quantity.text
  enclave_item : get? items ENCLAVE = enclave.map Quantity.text

structure Container where
  requests : Option Requests
  limits : Option (Dict Str Str)

namespace Container

variable (c : Container)

def resources : Resources := { requests := c.requests.map Requests.items, limits := c.limits }

def epc : Option Quantity := c.requests.bind Requests.epc

def enclave : Option Quantity := c.requests.bind Requests.enclave

end Container

/-- The sum over the containers of all pods. -/
def total (f : Container → Int) : List (List Container) → Int
  | [] => 0
  | containers :: pods => containers.foldr (fun c sum => f c + sum) 0 + total f pods

def valueOf (q : Option Quantity) : Int := (q.map Quantity.value).getD 0

/-- The totals are the sums of what the containers ask for. -/
def Exact (pods : List (List Container)) : Prop :=
  getTotalAllocatedSgx (pods.map fun containers => containers.map Container.resources) =
    .ok { enclave := total (fun c => valueOf c.enclave) pods
          epc := total (fun c => valueOf c.epc) pods }

/-- The number of a quantity in thousands. -/
def thousands (q : Option Quantity) : Int :=
  match q with
  | some ⟨number, .k⟩ => number
  | _ => 0

/-- A quantity with a suffix that the code does not know. -/
def Large (q : Option Quantity) : Prop := ∃ n, q = some ⟨n, .M⟩ ∨ q = some ⟨n, .G⟩

/-- The container has no map of requests but limits. -/
def Container.OnlyLimits (c : Container) : Prop := c.requests = none ∧ Truthy c.limits

/-- Every container with limits has requests, none has a large quantity, and the
numbers in thousands cancel out. -/
def Countable (pods : List (List Container)) : Prop :=
  (∀ containers ∈ pods, ∀ c ∈ containers, ¬ c.OnlyLimits ∧ ¬ Large c.epc ∧ ¬ Large c.enclave) ∧
    total (fun c => thousands c.epc) pods = 0 ∧ total (fun c => thousands c.enclave) pods = 0

section Requests

/-- What the code takes a quantity for. -/
def counted (q : Option Quantity) : Int := valueOf q + 24 * thousands q

variable {items : Dict Str Str} {resource : Str} {q : Option Quantity}

theorem last_decimalInt (n : Int) : ∀ c ∈ (decimalInt n).getLast?, c.isDigit := by
  intro c hc
  cases n with
  | ofNat m => exact isDigit_decimal m c (List.mem_of_mem_getLast? hc)
  | negSucc m =>
    rw [decimalInt, List.getLast?_cons_of_ne_nil (decimal_ne_nil _)] at hc
    exact isDigit_decimal _ c (List.mem_of_mem_getLast? hc)

theorem addRequest_number (n : Int) (h : get? items resource = some (decimalInt n)) (sum : Int) :
    addRequest items resource sum = .ok (sum + n) := by
  have hk : ¬ ['k'] <:+ decimalInt n := by
    rintro ⟨s, hs⟩
    have hdigit := last_decimalInt n 'k' (by rw [← hs]; simp)
    cases hdigit
  rw [addRequest, h]
  dsimp only
  rw [if_neg hk, int10_decimalInt]
  rfl

theorem addRequest_thousands (n : Int) (h : get? items resource = some (decimalInt n ++ ['k']))
    (sum : Int) : addRequest items resource sum = .ok (sum + n * 1024) := by
  rw [addRequest, h]
  dsimp only
  rw [if_pos (List.suffix_append _ _), List.dropLast_concat, int10_decimalInt]
  rfl

theorem addRequest_large (n : Int) {c : Char} (hc : c.isAlpha) (hk : c ≠ 'k')
    (h : get? items resource = some (decimalInt n ++ [c])) (sum : Int) :
    addRequest items resource sum = .raised .valueError := by
  have hsuffix : ¬ ['k'] <:+ decimalInt n ++ [c] := by
    rintro ⟨s, hs⟩
    have hlast := congrArg List.getLast? hs
    rw [List.getLast?_concat, List.getLast?_concat, Option.some.injEq] at hlast
    exact hk hlast.symm
  have hnone : int10 (decimalInt n ++ [c]) = none :=
    int10_none (List.mem_append_right _ (List.mem_singleton_self c)) hc
  rw [addRequest, h]
  dsimp only
  rw [if_neg hsuffix, hnone]
  rfl

/-- The code counts 1024 for 1000, and does not read the larger suffixes. -/
theorem addRequest_eq (h : get? items resource = q.map Quantity.text) (sum : Int) :
    (¬ Large q → addRequest items resource sum = .ok (sum + counted q)) ∧
      (Large q → addRequest items resource sum = .raised .valueError) := by
  cases q with
  | none =>
    have hlarge : ¬ Large none := by simp [Large]
    refine ⟨fun _ => ?_, fun h => absurd h hlarge⟩
    rw [addRequest, h]
    simp [counted, valueOf, thousands]
  | some q =>
    obtain ⟨n, suffix⟩ := q
    cases suffix with
    | one =>
      have hlarge : ¬ Large (some ⟨n, .one⟩) := by simp [Large]
      refine ⟨fun _ => ?_, fun h => absurd h hlarge⟩
      rw [addRequest_number n (by simpa [Quantity.text, Suffix.text] using h)]
      simp [counted, valueOf, thousands, Quantity.value, Suffix.factor]
    | k =>
      have hlarge : ¬ Large (some ⟨n, .k⟩) := by simp [Large]
      refine ⟨fun _ => ?_, fun h => absurd h hlarge⟩
      have hcounted : counted (some ⟨n, .k⟩) = n * 1024 := by
        simp only [counted, valueOf, thousands, Quantity.value, Suffix.factor, Option.map_some,
          Option.getD_some]
        omega
      rw [addRequest_thousands n h, hcounted]
    | M =>
      have hlarge : Large (some ⟨n, .M⟩) := ⟨n, Or.inl rfl⟩
      exact ⟨fun h => absurd hlarge h, fun _ =>
        addRequest_large n (by decide) (by decide) h sum⟩
    | G =>
      have hlarge : Large (some ⟨n, .G⟩) := ⟨n, Or.inr rfl⟩
      exact ⟨fun h => absurd hlarge h, fun _ =>
        addRequest_large n (by decide) (by decide) h sum⟩

end Requests

section Fold

def Container.Goes (c : Container) : Prop := ¬ c.OnlyLimits ∧ ¬ Large c.epc ∧ ¬ Large c.enclave

def Totals.add (t : Totals) (c : Container) : Totals :=
  { enclave := t.enclave + counted c.enclave, epc := t.epc + counted c.epc }

theorem addContainer_ok {c : Container} (h : c.Goes) (t : Totals) :
    addContainer t c.resources = .ok (t.add c) := by
  obtain ⟨honly, hepc, henclave⟩ := h
  have hzero : counted none = 0 := by simp [counted, valueOf, thousands]
  obtain ⟨requests, limits⟩ := c
  cases requests with
  | none =>
    have hlimits : ¬ Truthy limits := fun hl => honly ⟨rfl, hl⟩
    have hnone : ¬ Truthy (none : Option (Dict Str Str)) := fun hn => hn rfl
    have hskip : addContainer t { requests := none, limits := limits } = .ok t :=
      if_neg (not_or.mpr ⟨hnone, hlimits⟩)
    refine hskip.trans ?_
    simp [Totals.add, Container.enclave, Container.epc, hzero]
  | some r =>
    have hrun : (do
        let epc ← addRequest r.items EPC t.epc
        let enclave ← addRequest r.items ENCLAVE t.enclave
        .ok { enclave, epc }) =
          Outcome.ok (t.add { requests := some r, limits := limits }) := by
      rw [(addRequest_eq r.epc_item t.epc).1 hepc, Outcome.ok_bind,
        (addRequest_eq r.enclave_item t.enclave).1 henclave, Outcome.ok_bind]
      rfl
    rw [addContainer]
    split
    · exact hrun
    · next hfalse =>
      -- Without an item the requests add nothing.
      have hitems : r.items = [] := by
        by_contra hne
        exact hfalse (Or.inl hne)
      have hepc' := r.epc_item
      have henclave' := r.enclave_item
      rw [hitems] at hepc' henclave'
      have hepcnone : r.epc = none := Option.map_eq_none_iff.mp hepc'.symm
      have henclavenone : r.enclave = none := Option.map_eq_none_iff.mp henclave'.symm
      simp [Totals.add, Container.enclave, Container.epc, hepcnone, henclavenone, hzero]

theorem addContainer_raised {c : Container} (h : ¬ c.Goes) (t : Totals) :
    ∃ e, addContainer t c.resources = .raised e := by
  obtain ⟨requests, limits⟩ := c
  cases requests with
  | none =>
    have hlimits : Truthy limits := by
      by_contra hl
      apply h
      exact ⟨fun honly => hl honly.2, by simp [Large, Container.epc], by simp [Large, Container.enclave]⟩
    have hnone : addContainer t { requests := none, limits := limits } = .raised .attributeError :=
      if_pos (Or.inr hlimits)
    exact ⟨_, hnone⟩
  | some r =>
    have hlarge : Large r.epc ∨ Large r.enclave := by
      by_contra hnone
      rw [not_or] at hnone
      have honly : ¬ Container.OnlyLimits { requests := some r, limits := limits } :=
        fun honly => Option.some_ne_none r honly.1
      exact h ⟨honly, hnone.1, hnone.2⟩
    have hitems : Truthy (some r.items) := by
      intro hnil
      have hepc := r.epc_item
      have henclave := r.enclave_item
      have hnil : r.items = [] := hnil
      rw [hnil] at hepc henclave
      rw [Option.map_eq_none_iff.mp hepc.symm, Option.map_eq_none_iff.mp henclave.symm] at hlarge
      simp [Large] at hlarge
    have hsome : addContainer t { requests := some r.items, limits := limits } = (do
        let epc ← addRequest r.items EPC t.epc
        let enclave ← addRequest r.items ENCLAVE t.enclave
        .ok { enclave, epc }) := if_pos (Or.inl hitems)
    refine ⟨.valueError, hsome.trans ?_⟩
    by_cases hepc : Large r.epc
    · rw [(addRequest_eq r.epc_item t.epc).2 hepc]
      rfl
    · rw [(addRequest_eq r.epc_item t.epc).1 hepc, Outcome.ok_bind,
        (addRequest_eq r.enclave_item t.enclave).2 (hlarge.resolve_left hepc)]
      rfl

theorem foldl_add (containers : List Container) (t : Totals) : containers.foldl Totals.add t =
    { enclave := t.enclave + containers.foldr (fun c sum => counted c.enclave + sum) 0
      epc := t.epc + containers.foldr (fun c sum => counted c.epc + sum) 0 } := by
  induction containers generalizing t with
  | nil => simp
  | cons c containers ih =>
    rw [List.foldl_cons, ih, List.foldr_cons, List.foldr_cons, Totals.add]
    simp only [Int.add_assoc]

theorem foldl_pods (pods : List (List Container)) (t : Totals) :
    pods.foldl (fun t containers => containers.foldl Totals.add t) t =
      { enclave := t.enclave + total (fun c => counted c.enclave) pods
        epc := t.epc + total (fun c => counted c.epc) pods } := by
  induction pods generalizing t with
  | nil => simp [total]
  | cons containers pods ih =>
    rw [List.foldl_cons, ih, foldl_add, total, total]
    simp only [Int.add_assoc]

theorem total_counted (f : Container → Option Quantity) (pods : List (List Container)) :
    total (fun c => counted (f c)) pods =
      total (fun c => valueOf (f c)) pods + 24 * total (fun c => thousands (f c)) pods := by
  have hone : ∀ containers : List Container,
      containers.foldr (fun c sum => counted (f c) + sum) 0 =
        containers.foldr (fun c sum => valueOf (f c) + sum) 0 +
          24 * containers.foldr (fun c sum => thousands (f c) + sum) 0 := by
    intro containers
    induction containers with
    | nil => rfl
    | cons c containers ih =>
      rw [List.foldr_cons, List.foldr_cons, List.foldr_cons, ih, counted]
      omega
  induction pods with
  | nil => rfl
  | cons containers pods ih =>
    rw [total, total, total, ih, hone]
    omega

theorem getTotal_run (pods : List (List Container)) :
    ((∀ containers ∈ pods, ∀ c ∈ containers, c.Goes) →
      getTotalAllocatedSgx (pods.map fun containers => containers.map Container.resources) =
        .ok (pods.foldl (fun t containers => containers.foldl Totals.add t) {})) ∧
    ((¬ ∀ containers ∈ pods, ∀ c ∈ containers, c.Goes) → ∃ e,
      getTotalAllocatedSgx (pods.map fun containers => containers.map Container.resources) =
        .raised e) := by
  have hpod : ∀ (t : Totals) (containers : List Container),
      ((∀ c ∈ containers, c.Goes) → (containers.map Container.resources).foldlM addContainer t =
        .ok (containers.foldl Totals.add t)) ∧
      ((¬ ∀ c ∈ containers, c.Goes) →
        ∃ e, (containers.map Container.resources).foldlM addContainer t = .raised e) := by
    intro t containers
    have hfold := Outcome.foldlM_of_test (f := fun t (c : Container) => addContainer t c.resources)
      (g := Totals.add) (fun t c h => addContainer_ok h t) (fun t c h => addContainer_raised h t)
      containers t
    rw [List.foldlM_map]
    exact hfold
  rw [getTotalAllocatedSgx, List.foldlM_map]
  exact Outcome.foldlM_of_test (fun t containers h => (hpod t containers).1 h)
    (fun t containers h => (hpod t containers).2 h) pods {}

end Fold

/-- The totals are exact just if each container is counted and no thousands are
left over. -/
theorem allocation_exact_iff (pods : List (List Container)) : Exact pods ↔ Countable pods := by
  obtain ⟨hok, hraised⟩ := getTotal_run pods
  by_cases hgoes : ∀ containers ∈ pods, ∀ c ∈ containers, c.Goes
  · have hcountable : Countable pods ↔ total (fun c => thousands c.epc) pods = 0 ∧
        total (fun c => thousands c.enclave) pods = 0 := and_iff_right hgoes
    have hzero : (0 : Int) = ({} : Totals).enclave ∧ (0 : Int) = ({} : Totals).epc := ⟨rfl, rfl⟩
    rw [Exact, hok hgoes, foldl_pods, hcountable, total_counted, total_counted, ← hzero.1, ← hzero.2,
      Outcome.ok.injEq, Totals.mk.injEq]
    constructor
    · rintro ⟨henclave, hepc⟩
      exact ⟨by omega, by omega⟩
    · rintro ⟨hepc, henclave⟩
      exact ⟨by omega, by omega⟩
  · obtain ⟨e, he⟩ := hraised hgoes
    rw [Exact, he]
    exact iff_of_false (by simp) fun h => hgoes h.1

/-- A container that asks for so much EPC memory only. -/
def epcContainer (q : Quantity) : Container where
  requests := some
    { items := [(EPC, q.text)], epc := some q, enclave := none, epc_item := rfl, enclave_item := rfl }
  limits := none

/-- A thousand bytes are counted as 1024, a million raises, and so do limits alone. -/
theorem thousand_miscounted :
    getTotalAllocatedSgx [[(epcContainer ⟨1, .k⟩).resources]] = .ok { enclave := 0, epc := 1024 } ∧
    getTotalAllocatedSgx [[(epcContainer ⟨1, .M⟩).resources]] = .raised .valueError ∧
    getTotalAllocatedSgx [[⟨none, some [("cpu".toList, "1".toList)]⟩]] = .raised .attributeError ∧
    ¬ Exact [[epcContainer ⟨1, .k⟩]] := by
  refine ⟨by decide +kernel, by decide +kernel, by decide +kernel, ?_⟩
  rw [Exact]
  decide +kernel

end TdxTools.CloudStack.SgxAllocation
