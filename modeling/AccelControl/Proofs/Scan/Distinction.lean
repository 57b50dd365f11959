import AccelControl.Proofs.Scan.Request

/-! What can be told from a request.

A request shows every input but for the flags of the driver, of which it shows only the one that is
sent. Names of devices can be read back from their text as long as none is empty and none has a
comma; no names at all are an empty text, which no such names make.
-/

set_option autoImplicit false

namespace AccelControl.ScanParams

def Separable (names : List String) : Prop := ∀ name ∈ names, name ≠ "" ∧ ',' ∉ name.toList

def separated (text : String) : List String :=
  if text = "" then [] else (text.toList.splitOn ',').map String.ofList

theorem splitOn_joined {names : List String} (separable : Separable names)
    (nonempty : names ≠ []) : (joined names).toList.splitOn ',' = names.map String.toList := by
  rw [joined, String.toList_intercalate]
  refine List.splitOn_intercalate ',' ?_ (mt List.map_eq_nil_iff.1 nonempty)
  exact List.forall_mem_map.2 fun name mem => (separable name mem).2

theorem joined_cons_ne_empty {name : String} {names : List String}
    (separable : Separable (name :: names)) : joined (name :: names) ≠ "" := by
  intro empty
  have parts := splitOn_joined separable (List.cons_ne_nil name names)
  rw [empty] at parts
  have first : name.toList = [] := (List.cons.inj parts).1.symm
  exact (separable name List.mem_cons_self).1 (String.toList_inj.1 first)

/-- Names that commas keep apart are read back. -/
theorem separated_joined {names : List String} (separable : Separable names) :
    separated (joined names) = names := by
  cases names with
  | nil => rfl
  | cons name names =>
    rw [separated, if_neg (joined_cons_ne_empty separable),
      splitOn_joined separable (List.cons_ne_nil name names), List.map_map]
    simp

-- An empty name is lost, and a comma makes two names of one.
example : joined [""] = joined [] ∧ joined ["a,b"] = joined ["a", "b"] := by decide

theorem joined_inj {names others : List String} (separable : Separable names)
    (separable' : Separable others) (same : joined names = joined others) : names = others := by
  rw [← separated_joined separable, same, separated_joined separable']

theorem sizeJson_injective : Function.Injective sizeJson := by
  intro n n' same
  simp only [sizeJson_eq, Json.number.injEq, Json.Number.integer.injEq,
    Json.Integer.mk.injEq] at same
  exact UInt32.toNat_inj.1 (Int.ofNat_inj.1 same)

/-- The same is asked for, whichever of its two names the driver flag has. -/
structure Alike (p q : ScanParams) : Prop where
  qpSize : p.qpSize = q.qpSize
  cqSize : p.cqSize = q.cqSize
  numRequests : p.numRequests = q.numRequests
  cryptoSplitBlocks : p.cryptoSplitBlocks = q.cryptoSplitBlocks
  allowedDevs : p.allowedDevs = q.allowedDevs
  qpPerDomain : p.qpPerDomain = q.qpPerDomain
  enableModule : p.enableModule = q.enableModule
  disableSignature : p.disableSignature = q.disableSignature
  disableCrypto : p.disableCrypto = q.disableCrypto
  driver : p.driver = q.driver

variable {p q : ScanParams}

theorem Alike.wire_eq (alike : Alike p q) : p.wire = q.wire := by
  simp only [wire, alike.qpSize, alike.cqSize, alike.numRequests, alike.cryptoSplitBlocks,
    alike.allowedDevs, alike.qpPerDomain, alike.enableModule, alike.disableSignature,
    alike.disableCrypto, alike.driver]

def Legible (p : ScanParams) : Prop := ∀ names, p.allowedDevs = some names → Separable names

theorem allowedDevs_eq_of_joined (legible : p.Legible) (legible' : q.Legible)
    (same : p.allowedDevs.map joined = q.allowedDevs.map joined) :
    p.allowedDevs = q.allowedDevs := by
  cases names : p.allowedDevs with
  | none =>
    rw [names] at same
    exact (Option.map_eq_none_iff.1 same.symm).symm
  | some these =>
    rw [names] at same
    obtain ⟨those, names', joined⟩ := Option.map_eq_some_iff.1 same.symm
    rw [names', joined_inj (legible these names) (legible' those names') joined.symm]

theorem alike_of_build_params_eq (legible : p.Legible) (legible' : q.Legible)
    (same : p.build.params = q.build.params) : Alike p q := by
  have shown (name : String) : (p.wire.get? name).join = (q.wire.get? name).join := by
    rw [← get?_build, same, get?_build]
  -- Each name shows its input, because no two inputs of its kind have the same value.
  have sizes := Option.map_injective sizeJson_injective
  have flags := Option.map_injective fun _ _ => Json.bool.inj
  have texts := Option.map_injective fun _ _ => Json.string.inj
  exact {
    qpSize := sizes (shown "qp_size")
    cqSize := sizes (shown "cq_size")
    numRequests := sizes (shown "num_requests")
    cryptoSplitBlocks := sizes (shown "crypto_split_blocks")
    allowedDevs := allowedDevs_eq_of_joined legible legible' (texts (shown "allowed_devs"))
    qpPerDomain := flags (shown "qp_per_domain")
    enableModule := flags (shown "enable_module")
    disableSignature := flags (shown "disable_signature")
    disableCrypto := flags (shown "disable_crypto")
    driver := flags (shown "enable_driver") }

/-- Inputs with names that commas keep apart make the same request exactly if they are alike. -/
theorem build_params_eq_iff (legible : p.Legible) (legible' : q.Legible) :
    p.build.params = q.build.params ↔ Alike p q :=
  ⟨alike_of_build_params_eq legible legible', fun alike => build_params_congr alike.wire_eq⟩

theorem build_params_eq_iff_eitherFlag :
    let p : ScanParams :=
      { empty with allowedDevs := some ["mlx5_0", "mlx5_1"], merge := some false }
    let q : ScanParams := { p with merge := some true, enableDriver := some false }
    p.Legible ∧ q.Legible ∧ (p.build.params = q.build.params ↔ Alike p q) := by
  have separable : Separable ["mlx5_0", "mlx5_1"] := by simp [Separable]
  have legible {p : ScanParams} (names : p.allowedDevs = some ["mlx5_0", "mlx5_1"]) : p.Legible :=
    fun _ given => Option.some.inj (names.symm.trans given) ▸ separable
  exact ⟨legible rfl, legible rfl, build_params_eq_iff (legible rfl) (legible rfl)⟩

end AccelControl.ScanParams
