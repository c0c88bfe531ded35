import TestActivity.Aidl.Proxy
import TestActivity.Aidl.FrontEnd

/-!
# What the compiler promises

The types of the table have code for their values (`Ty.Regular`), so a method that is
let through is one that can be called (`checkMethod_ready`). The numbers of the methods
are codes that select them (`Accepted.distinct`), and no search for a name changes what
another one stands for (`Namespace.Based.sound`).
-/

namespace Aidl

variable {W O σ : Type}

/-! ## The types of the table -/

/-- The types that pass the checks although there is no code for their values. -/
def codelessTypes : List Ty := [VOID_TYPE, PW_TYPE, SW_TYPE]

instance : DecidablePred Wire.Fillable := fun w =>
  match w with
  | .direct fmt => inferInstanceAs (Decidable (fmt.filler.isSome = true))
  | .userData _ => inferInstanceAs (Decidable True)
  | .boolean | .char | .charSequence | .interface _ => inferInstanceAs (Decidable False)

/-- What the flags of a type say about its code. -/
structure Ty.Regular (t : Ty) : Prop where
  scalar : t.canWriteToParcel = true → t ∉ codelessTypes → t.wireScalar.isSome = true
  array : t.canBeArray = true → t ≠ VOID_TYPE → t.wireArray.isSome = true
  out : t.canBeOut = true → ∀ w ∈ t.wireScalar, w.Fillable

def Namespace.Regular (ns : Namespace) : Prop := ∀ t ∈ ns.types, t.Regular

variable {ns : Namespace} {t : Ty} {name : String}

theorem Ty.regular_of_eq_false {t : Ty} (hplain : t.cls = .plain ∨ t.cls = .silent)
    (hwrite : t.canWriteToParcel = false) (hout : t.canBeOut = false) : t.Regular where
  scalar := fun h => by simp [hwrite] at h
  array := fun h => by
    rcases hplain with hplain | hplain <;> simp [Ty.canBeArray, hplain] at h
  out := fun h => by simp [hout] at h

theorem userDataType_regular (package name : String) (builtIn parcel rpc : Bool) :
    (Ty.userDataType package name builtIn parcel rpc).Regular where
  scalar := fun _ _ => rfl
  array := fun _ _ => rfl
  out := fun _ w hw => by
    cases hw
    trivial

theorem interfaceType_regular (package name : String) (builtIn oneway : Bool) :
    (Ty.interfaceType package name builtIn oneway).Regular where
  scalar := fun _ _ => rfl
  array := fun h => by cases h
  out := fun h => by cases h

theorem genericListType_regular (args : List Ty) :
    (Ty.genericListType "java.util" "List" args).Regular where
  scalar := fun _ _ => by
    unfold Ty.wireScalar Ty.genericListType
    dsimp only
    split
    · rfl
    · split <;> rfl
  array := fun h => by cases h
  out := fun _ w hw => by
    unfold Ty.wireScalar Ty.genericListType at hw
    dsimp only at hw
    split at hw
    · cases hw
      rfl
    · split at hw <;>
      · cases hw
        rfl

theorem registerBaseTypes_regular : (registerBaseTypes {}).Regular := by
  intro t ht
  rw [registerBaseTypes_types] at ht
  have hall : ∀ u ∈ baseTypes,
      (u.canWriteToParcel = true → u ∉ codelessTypes → u.wireScalar.isSome = true) ∧
      (u.canBeArray = true → u ≠ VOID_TYPE → u.wireArray.isSome = true) ∧
      (u.canBeOut = true → ∀ w ∈ u.wireScalar, w.Fillable) := by decide
  exact ⟨(hall t ht).1, (hall t ht).2.1, (hall t ht).2.2⟩

theorem Namespace.mem_add {u : Ty} (h : u ∈ (ns.add t).types) : u ∈ ns.types ∨ u = t := by
  unfold Namespace.add at h
  split at h
  · simpa using h
  · exact .inl h

theorem Namespace.Regular.add (h : ns.Regular) (ht : t.Regular) : (ns.add t).Regular := by
  intro u hu
  rcases mem_add hu with hu | rfl
  · exact h u hu
  · exact ht

/-- A name stands for a type with code. -/
theorem Namespace.Regular.type (h : ns.Regular) (ht : ns.type name = some t) : t.Regular := by
  unfold Namespace.type search at ht
  split at ht
  · next u hu =>
      cases ht
      rw [searchName, Option.or_eq_some_iff] at hu
      rcases hu with hu | ⟨-, hu⟩
      · exact h _ (find_some hu).1
      · exact h _ (List.mem_of_find?_eq_some hu)
  · split at ht
    · cases ht
    · next u hu =>
        unfold genericType at hu
        split at hu
        · cases hu
        · simp only [Option.bind_eq_some_iff] at hu
          rcases hu with ⟨g, -, args, -, hmake⟩
          unfold makeGenericType at hmake
          split at hmake
          · cases hmake
            exact h.add (genericListType_regular args) _ (find_some ht).1
          · cases hmake

theorem Namespace.mem_foldl_add {ts : List Ty} {u : Ty}
    (h : u ∈ (ts.foldl Namespace.add ns).types) : u ∈ ns.types ∨ u ∈ ts := by
  induction ts generalizing ns with
  | nil => exact .inl h
  | cons t ts ih =>
      rcases ih h with h | h
      · rcases mem_add h with h | rfl
        · exact .inl h
        · exact .inr List.mem_cons_self
      · exact .inr (List.mem_cons_of_mem _ h)

theorem Namespace.mem_gatherType {item : DocumentItem} (h : t ∈ (gatherType ns item).2.types) :
    t ∈ ns.types ∨ t ∈ item.types := by
  unfold gatherType at h
  split at h
  · rcases mem_foldl_add h with h | h
    · rcases mem_add h with h | rfl
      · exact .inl h
      · exact .inr List.mem_cons_self
    · exact .inr (List.mem_cons_of_mem _ h)
  · exact .inl h

/-- The table holds what it held, and what was declared. -/
theorem Namespace.mem_gatherTypes {items : List DocumentItem}
    (h : t ∈ (gatherTypes ns items).2.types) :
    t ∈ ns.types ∨ ∃ item ∈ items, t ∈ item.types := by
  induction items generalizing ns with
  | nil => exact .inl h
  | cons item items ih =>
      have hrest : t ∈ (gatherTypes (gatherType ns item).2 items).2.types := h
      rcases ih hrest with hfirst | ⟨other, hother, ht⟩
      · exact (mem_gatherType hfirst).imp_right fun ht => ⟨item, List.mem_cons_self, ht⟩
      · exact .inr ⟨other, List.mem_cons_of_mem _ hother, ht⟩

theorem DocumentItem.types_regular (item : DocumentItem) : ∀ t ∈ item.types, t.Regular := by
  intro t ht
  cases item with
  | userData p =>
      rw [List.mem_singleton.1 ht]
      exact userDataType_regular ..
  | interface c =>
      rcases List.mem_cons.1 ht with rfl | ht
      · exact interfaceType_regular ..
      · rcases List.mem_map.1 ht with ⟨suffix, -, rfl⟩
        exact Ty.regular_of_eq_false (.inl rfl) rfl rfl

/-- The declared types have code. -/
theorem Namespace.Regular.gatherTypes (h : ns.Regular) (items : List DocumentItem) :
    (gatherTypes ns items).2.Regular := by
  intro t ht
  rcases mem_gatherTypes ht with ht | ⟨item, -, ht⟩
  · exact h t ht
  · exact item.types_regular t ht

/-! ## The names of the table -/

/-- The table before any search: what `register_base_types` left, and what was added. -/
structure Namespace.Based (ns : Namespace) : Prop where
  nodup : (ns.types.map Ty.qualifiedName).Nodup
  types : ∃ ts, ns.types = baseTypes ++ ts
  generics : ns.generics = [⟨"java.util", "List", 1⟩, ⟨"java.util", "Map", 2⟩]

theorem registerBaseTypes_based : (registerBaseTypes {}).Based where
  nodup := by
    rw [registerBaseTypes_types]
    exact baseTypes_nodup
  types := ⟨[], by rw [registerBaseTypes_types, List.append_nil]⟩
  generics := registerBaseTypes_generics

theorem Namespace.Based.add (h : ns.Based) (t : Ty) : (ns.add t).Based := by
  cases hfind : ns.find t.qualifiedName with
  | some u =>
      rw [add_of_some hfind]
      exact h
  | none =>
      rw [add_of_none hfind]
      rcases h.types with ⟨ts, hts⟩
      refine ⟨?_, ⟨ts ++ [t], by rw [hts, List.append_assoc]⟩, h.generics⟩
      rw [List.map_append, List.map_singleton, List.nodup_append]
      refine ⟨h.nodup, List.nodup_singleton _, ?_⟩
      intro a ha b hb hab
      rcases List.mem_map.1 ha with ⟨u, hu, rfl⟩
      have hne : ¬u.qualifiedName = t.qualifiedName := by
        simpa using List.find?_eq_none.1 hfind u hu
      exact hne (hab.trans (List.mem_singleton.1 hb))

theorem Namespace.Based.foldl_add (h : ns.Based) (ts : List Ty) :
    (ts.foldl Namespace.add ns).Based := by
  induction ts generalizing ns with
  | nil => exact h
  | cons t ts ih => exact ih (h.add t)

theorem Namespace.Based.gatherTypes (h : ns.Based) (items : List DocumentItem) :
    (gatherTypes ns items).2.Based := by
  induction items generalizing ns with
  | nil => exact h
  | cons item items ih =>
      have hitem : (gatherType ns item).2.Based := by
        unfold gatherType
        split
        · exact (h.add item.type).foldl_add item.inner
        · exact h
      exact ih hitem

/-- Without brackets in the names the table is sound. -/
theorem Namespace.Based.sound (h : ns.Based) (hplain : ∀ t ∈ ns.types, t.Plain) : ns.Sound where
  nodup := h.nodup
  types := fun t ht => .inl (hplain t ht)
  list := by
    rcases h.types with ⟨ts, hts⟩
    have hlist : baseTypes.find? (·.name == "List") = some LIST_TYPE := by decide
    refine ⟨LIST_TYPE, ?_, hplain _ ?_⟩
    · rw [hts, List.find?_append, hlist, Option.some_or]
    · rw [hts]
      exact List.mem_append_left _ (List.mem_of_find?_eq_some hlist)
  generics := h.generics

/-! ## Methods -/

/-- The lists that Java has a type for, of those with the code of `String` or of
`IBinder`: a type without a creator is taken for the latter. -/
def Ty.Listable (t : Ty) : Prop :=
  (t.cls = .genericList STRING_TYPE.creatorName →
    t = Ty.genericListType "java.util" "List" [STRING_TYPE]) ∧
  (t.cls = .genericList IBINDER_TYPE.creatorName →
    t = Ty.genericListType "java.util" "List" [IBINDER_TYPE])

/-- What the checks let through and Java does not is left out: parameters with the
names of the proxy's own variables, values without code, `new java.util.Map()`, and
lists of what cannot be in a list. -/
structure Method.Usable (m : Method) : Prop where
  names : m.WellNamed
  result : (m.isVoid = true ∧ m.dimension = 0) ∨ m.returnType ∉ codelessTypes
  args : ∀ arg ∈ m.args, arg.type ∉ codelessTypes
  map : ∀ arg ∈ m.args, arg.isIn = false → arg.dimension = 0 → arg.type.cls ≠ .map
  lists : m.returnType.Listable ∧ ∀ arg ∈ m.args, arg.type.Listable

variable {m : Method} {i : MethodType} {oneway : Bool}

theorem notMem_codelessTypes (h : t ∉ codelessTypes) : t ≠ VOID_TYPE := by
  rintro rfl
  exact h List.mem_cons_self

/-- A type that may be marshalled has code for the dimensions that are allowed. -/
theorem Ty.Regular.wire (h : t.Regular) (hcode : t ∉ codelessTypes) {dimension : ℕ}
    (hwrite : t.canWriteToParcel = true) (hdim : dimension ≤ 1)
    (harray : dimension = 1 → t.canBeArray = true) : ∃ w, t.wire dimension = some w := by
  unfold Ty.wire
  split
  · exact Option.isSome_iff_exists.1 (h.scalar hwrite hcode)
  · next hne =>
      have hone : dimension = 1 := by omega
      rw [if_pos hone]
      rcases Option.isSome_iff_exists.1 (h.array (harray hone) (notMem_codelessTypes hcode)) with
        ⟨fmt, hfmt⟩
      exact ⟨.direct fmt, by rw [hfmt, Option.map_some]⟩

theorem Ty.fillable_of_wireArray {fmt : Format} (h : t.wireArray = some fmt) :
    (Wire.direct fmt).Fillable := by
  unfold Ty.wireArray at h
  split at h
  all_goals cases h
  all_goals rfl

theorem Arg.isOut_of_direction {arg : Arg} (h : arg.isOut = true) :
    convertDirection arg.direction ≠ IN_PARAMETER := by
  intro heq
  rw [Arg.isOut, heq] at h
  cases h

/-- An argument that is let through has code. -/
theorem ArgType.Checked.ready {a : ArgType} (hns : ns.Regular) (ht : ns.type a.type.name = some t)
    (hchecked : a.Checked t) (hcode : t ∉ codelessTypes) {arg : Arg}
    (harg : a.resolve ns = some arg)
    (hmap : arg.isIn = false → arg.dimension = 0 → arg.type.cls ≠ .map) : arg.Ready := by
  rw [ArgType.resolve, ht, Option.map_some] at harg
  cases harg
  have hregular := hns.type ht
  rcases hregular.wire hcode hchecked.canWriteToParcel hchecked.dimension hchecked.canBeArray with
    ⟨w, hw⟩
  refine ⟨⟨w, hw, fun hout => ?_⟩, hmap⟩
  unfold Ty.wire at hw
  split at hw
  · next hdim =>
      have hcan := hchecked.canBeOut (Arg.isOut_of_direction hout)
      exact hregular.out (hcan.resolve_right (not_not_intro hdim)) w hw
  · split at hw
    · rw [Option.map_eq_some_iff] at hw
      rcases hw with ⟨fmt, hfmt, rfl⟩
      exact Ty.fillable_of_wireArray hfmt
    · cases hw

/-- The checks of the result, for a binder interface. -/
theorem checkMethod_spec (h : checkMethod ns false i = []) :
    ∃ t, ns.type i.type.name = some t ∧ t.canWriteToParcel = true ∧ i.type.dimension ≤ 1 ∧
      (i.type.dimension = 1 → t.canBeArray = true) ∧ checkArgs ns false t 1 i.args = [] := by
  unfold checkMethod at h
  cases ht : ns.type i.type.name with
  | none =>
      rw [ht] at h
      cases h
  | some t =>
      rw [ht] at h
      simp only [List.append_eq_nil_iff] at h
      rcases h with ⟨⟨⟨hwrite, harray⟩, hdim⟩, hargs⟩
      have hone : i.type.dimension ≤ 1 := by
        by_contra hlt
        rw [if_pos (by omega)] at hdim
        cases hdim
      refine ⟨t, rfl, ?_, hone, fun hdim => ?_, hargs⟩
      · split at hwrite
        · cases hwrite
        · split at hwrite
          · next hcan => exact hcan
          · cases hwrite
      · by_contra hcan
        rw [if_pos ⟨by omega, by simpa using hcan⟩] at harray
        cases harray

/-- A method that is let through, and that Java lets through, can be called. -/
theorem checkMethod_ready (hns : ns.Regular) (hcheck : checkMethod ns false i = [])
    (hm : i.resolve ns oneway = some m) (husable : m.Usable) : m.Ready := by
  rcases checkMethod_spec hcheck with ⟨t, ht, hwrite, hdim, harray, hargs⟩
  rw [MethodType.resolve, ht, Option.bind_some, Option.map_eq_some_iff] at hm
  rcases hm with ⟨args, hresolve, rfl⟩
  refine ⟨fun arg harg => ?_, ?_⟩
  · rcases (mapM_eq_some hresolve).2 arg harg with ⟨a, ha, haarg⟩
    rcases checkArgs_spec hargs a ha with ⟨u, hu, hchecked⟩
    refine hchecked.ready hns hu ?_ haarg (husable.map arg harg)
    have hcode := husable.args arg harg
    rw [ArgType.resolve, hu, Option.map_some] at haarg
    cases haarg
    exact hcode
  · rcases husable.result with hvoid | hcode
    · exact .inl hvoid.1
    · exact .inr ((hns.type ht).wire hcode hwrite hdim harray)

/-! ## Codes -/

/-- The constants `TRANSACTION_` of `generate_method`. -/
def transactionCode : List MethodType → List ℤ → String → ℤ
  | i :: is, id :: ids, name =>
    if i.name = name then FIRST_CALL_TRANSACTION + id else transactionCode is ids name
  | _, _, _ => 0

variable {c : InterfaceType} {ids : List ℤ} {ms : List Method} {is : List MethodType}

theorem transactionCode_eq (hnames : (is.map (·.name)).Nodup) (hlength : ids.length = is.length) :
    is.map (fun i => transactionCode is ids i.name) = ids.map (FIRST_CALL_TRANSACTION + ·) := by
  induction is generalizing ids with
  | nil =>
      cases ids with
      | nil => rfl
      | cons id ids => cases hlength
  | cons i is ih =>
      cases ids with
      | nil => cases hlength
      | cons id ids =>
          rw [List.map_cons, List.nodup_cons] at hnames
          have hhead : transactionCode (i :: is) (id :: ids) i.name = FIRST_CALL_TRANSACTION + id :=
            if_pos rfl
          have htail : is.map (fun j => transactionCode (i :: is) (id :: ids) j.name) =
              is.map (fun j => transactionCode is ids j.name) := by
            refine List.map_congr_left fun j hj => if_neg fun heq => hnames.1 ?_
            rw [heq]
            exact List.mem_map_of_mem hj
          rw [List.map_cons, hhead, htail, ih hnames.2 (Nat.succ.inj hlength), List.map_cons]

theorem resolve_name (hm : i.resolve ns oneway = some m) : m.name = i.name := by
  simp only [MethodType.resolve, Option.bind_eq_some_iff, Option.map_eq_some_iff] at hm
  rcases hm with ⟨t, -, args, -, rfl⟩
  rfl

theorem methods_names (h : is.mapM (MethodType.resolve ns oneway) = some ms) :
    ms.map (·.name) = is.map (·.name) := by
  induction is generalizing ms with
  | nil =>
      cases h
      rfl
  | cons i is ih =>
      simp only [List.mapM_cons, Option.bind_eq_bind, Option.pure_def,
        Option.bind_eq_some_iff, Option.some.injEq] at h
      rcases h with ⟨m, hm, ms, hms, rfl⟩
      rw [List.map_cons, List.map_cons, resolve_name hm, ih hms]

theorem resolve_oneway (hm : i.resolve ns oneway = some m) : m.oneway = (i.oneway || oneway) := by
  simp only [MethodType.resolve, Option.bind_eq_some_iff, Option.map_eq_some_iff] at hm
  rcases hm with ⟨t, -, args, -, rfl⟩
  exact Bool.or_comm oneway i.oneway

theorem methods_oneway (h : is.mapM (MethodType.resolve ns oneway) = some ms) :
    ms.map (·.oneway) = is.map fun i => i.oneway || oneway := by
  induction is generalizing ms with
  | nil =>
      cases h
      rfl
  | cons i is ih =>
      simp only [List.mapM_cons, Option.bind_eq_bind, Option.pure_def,
        Option.bind_eq_some_iff, Option.some.injEq] at h
      rcases h with ⟨m, hm, ms, hms, rfl⟩
      rw [List.map_cons, List.map_cons, resolve_oneway hm, ih hms]

/-- The numbers of transactions that a `BitVec` keeps apart. -/
theorem ofInt_inj {a b : ℤ} (ha : 0 ≤ a ∧ a < 2 ^ 32) (hb : 0 ≤ b ∧ b < 2 ^ 32)
    (h : BitVec.ofInt 32 a = BitVec.ofInt 32 b) : a = b := by
  have hnat := congrArg BitVec.toNat h
  rw [BitVec.toNat_ofInt, BitVec.toNat_ofInt] at hnat
  omega

/-- An interface that was let through. -/
structure Accepted (ns : Namespace) (c : InterfaceType) (ids : List ℤ) : Prop where
  regular : ns.Regular
  methods : checkMethods ns c.rpc [] c.items = false
  ids : checkAndAssignMethodIds c.items = some ids

variable {src : Sources} {o : Options} {ns₀ : Namespace}

/-- The table of what is generated holds declared types, on top of the base types. -/
theorem compileAidl_table (h : compileAidl src o = .generate ns c ids) :
    ∃ items, ns = (gatherTypes (registerBaseTypes {}) items).2 := by
  rcases compileAidl_spec h with ⟨ns₀, items, hfiles, hgather, -, -⟩
  rcases parsePreprocessedFiles_items hfiles with ⟨first, -, rfl⟩
  exact ⟨first ++ .interface c :: items, by rw [gatherTypes_append, hgather]⟩

theorem compileAidl_generate (h : compileAidl src o = .generate ns c ids) : Accepted ns c ids := by
  rcases compileAidl_spec h with ⟨-, -, -, -, hmethods, hids⟩
  rcases compileAidl_table h with ⟨items, rfl⟩
  exact ⟨registerBaseTypes_regular.gatherTypes items, hmethods, hids⟩

theorem InterfaceType.methods_spec (h : c.methods ns = some ms) :
    ∃ oneway, c.oneWay ns = some oneway ∧ c.items.mapM (MethodType.resolve ns oneway) = some ms :=
  Option.bind_eq_some_iff.1 h

/-- The codes of an interface that is let through are its numbers, counted from the
first there is for calls. -/
theorem Accepted.codes (h : Accepted ns c ids) (hms : c.methods ns = some ms)
    {env : Env W O σ} (hcode : env.code = transactionCode c.items ids) :
    ms.map (fun m => env.code m.name) = ids.map (FIRST_CALL_TRANSACTION + ·) := by
  rcases InterfaceType.methods_spec hms with ⟨oneway, -, hresolve⟩
  rw [hcode, ← transactionCode_eq (checkMethods_spec h.methods).1
    (checkAndAssignMethodIds_spec h.ids).1]
  have hnames := congrArg (List.map (transactionCode c.items ids)) (methods_names hresolve)
  rw [List.map_map, List.map_map] at hnames
  exact hnames

theorem Accepted.code_bounds (h : Accepted ns c ids) (hms : c.methods ns = some ms)
    (hcount : c.items.length ≤ 16777215) {env : Env W O σ}
    (hcode : env.code = transactionCode c.items ids) (hm : m ∈ ms) :
    1 ≤ env.code m.name ∧ env.code m.name ≤ 16777215 := by
  rcases checkAndAssignMethodIds_spec h.ids with ⟨-, -, hmin, hmax⟩
  have hmem : env.code m.name ∈ ids.map (FIRST_CALL_TRANSACTION + ·) :=
    h.codes hms hcode ▸ List.mem_map_of_mem hm
  rcases List.mem_map.1 hmem with ⟨id, hid, heq⟩
  have hlow := hmin id hid
  have hhigh : id ≤ 16777214 := hmax hcount id hid
  rw [← heq, FIRST_CALL_TRANSACTION]
  omega

/-- They are apart, up to the number of transactions there are. -/
theorem Accepted.distinct (h : Accepted ns c ids) (hms : c.methods ns = some ms)
    (hcount : c.items.length ≤ 16777215) {env : Env W O σ}
    (hcode : env.code = transactionCode c.items ids) : env.Distinct ms := by
  have hnodup : (ms.map fun m => env.code m.name).Nodup := by
    rw [h.codes hms hcode]
    refine (checkAndAssignMethodIds_spec h.ids).2.1.map fun a b hab => ?_
    exact Int.add_left_cancel hab
  refine ⟨?_, fun m hm heq => ?_⟩
  · have hmap : ms.map (fun m => BitVec.ofInt 32 (env.code m.name)) =
        (ms.map fun m => env.code m.name).map (BitVec.ofInt 32) := by
      rw [List.map_map]
      rfl
    rw [hmap]
    refine hnodup.map_on fun a ha b hb heq => ?_
    rcases List.mem_map.1 ha with ⟨m, hm, rfl⟩
    rcases List.mem_map.1 hb with ⟨k, hk, rfl⟩
    have hm' := h.code_bounds hms hcount hcode hm
    have hk' := h.code_bounds hms hcount hcode hk
    exact ofInt_inj (by omega) (by omega) heq
  · have hm' := h.code_bounds hms hcount hcode hm
    have hne := ofInt_inj (by omega) (by rw [INTERFACE_TRANSACTION]; omega) heq
    rw [INTERFACE_TRANSACTION] at hne
    omega

/-- Its methods can be called. -/
theorem Accepted.ready (h : Accepted ns c ids) (hbinder : c.rpc = false)
    (hms : c.methods ns = some ms) (hm : m ∈ ms) (husable : m.Usable) : m.Ready := by
  rcases InterfaceType.methods_spec hms with ⟨oneway, -, hresolve⟩
  rcases (mapM_eq_some hresolve).2 m hm with ⟨i, hi, him⟩
  have hcheck := ((checkMethods_spec h.methods).2 i hi).2
  rw [hbinder] at hcheck
  exact checkMethod_ready h.regular hcheck him husable

/-! ## The word `oneway` -/

theorem findIn_eq (ns : Namespace) {c : InterfaceType} (hpackage : c.package ≠ some "") :
    ns.findIn c.package c.name = ns.find (DocumentItem.interface c).type.qualifiedName := by
  rw [Namespace.findIn, DocumentItem.type_qualifiedName]
  show ns.find (c.package.elim "" (· ++ ".") ++ c.name) = ns.find
    ((if (c.package.getD "").isEmpty then "" else c.package.getD "" ++ ".") ++ c.name)
  cases hname : c.package with
  | none => rfl
  | some package =>
      have hne : package.isEmpty = false := by
        by_contra h
        have hempty : package = "" := by simpa using h
        exact hpackage (by rw [hname, hempty])
      simp [hne]

/-- A line declares interfaces that are not one-way. -/
theorem Keyword.item_types (k : Keyword) (package : Option String) (name : String) :
    ∀ t ∈ (k.item package name).types, t.kind = .interface → t.cls = .interface false := by
  intro t ht hkind
  cases k with
  | interface =>
      rcases List.mem_cons.1 ht with rfl | ht
      · rfl
      · rcases List.mem_map.1 ht with ⟨suffix, -, rfl⟩
        cases hkind
  | parcelable =>
      rw [List.mem_singleton.1 ht] at hkind
      cases hkind
  | flattenable =>
      rw [List.mem_singleton.1 ht] at hkind
      cases hkind

theorem preprocessed_cls {files : List String}
    (h : parsePreprocessedFiles src (registerBaseTypes {}) files = some (false, ns₀))
    (ht : t ∈ ns₀.types) (hkind : t.kind = .interface) : t.cls = .interface false := by
  rcases parsePreprocessedFiles_items h with ⟨items, hitems, rfl⟩
  rcases Namespace.mem_gatherTypes ht with ht | ⟨item, hitem, ht⟩
  · have hbase : ∀ u ∈ baseTypes, u.kind ≠ .interface := by decide
    rw [registerBaseTypes_types] at ht
    exact absurd hkind (hbase t ht)
  · rcases hitems item hitem with ⟨k, package, name, rfl⟩
    exact k.item_types package name t ht hkind

/-- A declared interface that the table had before was one, too. -/
theorem gatherType_kind {item : DocumentItem} (hfind : ns.find item.type.qualifiedName = some t)
    (h : (gatherType ns item).1 = false) : t.kind = item.type.kind := by
  rw [gatherType, hfind] at h
  have hkind := (Bool.or_eq_false_iff.1 h).2
  simpa using (bne_eq_false_iff_eq.1 hkind).symm

/-- The word in front of an interface counts if no preprocessed file lists it: otherwise
the class of the proxy asks the type that was made of the line. -/
theorem generated_oneway (hcompile : compileAidl src o = .generate ns c ids)
    (hfiles : parsePreprocessedFiles src (registerBaseTypes {}) o.preprocessedFiles =
      some (false, ns₀))
    (hpackage : c.package ≠ some "") (hms : c.methods ns = some ms) :
    ms.map (·.oneway) = c.items.map fun i =>
      i.oneway || (c.oneway && (ns₀.findIn c.package c.name).isNone) := by
  rcases compileAidl_spec hcompile with ⟨ns₁, items, hfiles', hgather, -, -⟩
  rw [hfiles, Option.some.injEq, Prod.mk.injEq] at hfiles'
  rcases hfiles' with ⟨-, rfl⟩
  have hns : (gatherTypes ns₀ (.interface c :: items)).2 = ns := by rw [hgather]
  have herr : (gatherType ns₀ (.interface c)).1 = false := by
    have hboth : (gatherTypes ns₀ (.interface c :: items)).1 = false := by rw [hgather]
    exact (Bool.or_eq_false_iff.1 hboth).1
  have hword : c.oneWay ns = some (c.oneway && (ns₀.findIn c.package c.name).isNone) := by
    have hfirst := Namespace.find_gatherType ns₀ (.interface c)
    rw [InterfaceType.oneWay, findIn_eq _ hpackage, findIn_eq _ hpackage]
    cases hfind : ns₀.find (DocumentItem.interface c).type.qualifiedName with
    | none =>
        -- the declared interface is the one in the table
        rw [hfind, Option.none_or] at hfirst
        rw [← hns, gatherTypes, Namespace.find_gatherTypes_of_some items hfirst]
        simp [DocumentItem.type, Ty.interfaceType, Ty.ofPackage]
    | some t =>
        -- the one from the line stays, and is not one-way
        rw [hfind, Option.some_or] at hfirst
        rw [← hns, gatherTypes, Namespace.find_gatherTypes_of_some items hfirst]
        have hcls : t.cls = .interface false :=
          preprocessed_cls hfiles (Namespace.find_some hfind).1 (gatherType_kind hfind herr)
        simp [hcls]
  rcases InterfaceType.methods_spec hms with ⟨oneway, honeway, hresolve⟩
  rw [hword, Option.some.injEq] at honeway
  subst honeway
  exact methods_oneway hresolve

/-- A one-way interface that a preprocessed file lists. -/
def quietInterface : InterfaceType where
  oneway := true
  package := some "demo"
  name := "IQuiet"
  items := [{ type := ⟨"void", 0⟩, name := "clear", args := [⟨none, ⟨"int", 0⟩, "level"⟩] }]

def quietSources : Sources where
  cwd := "/home/demo"
  readable _ := false
  text _ := some "interface demo.IQuiet;\n".toList
  parse _ := some ([.interface quietInterface], [])

def quietOptions : Options where
  preprocessedFiles := ["framework.aidl"]
  inputFileName := "demo/IQuiet.aidl"

/-- What the file declares. -/
def quietBase : Namespace :=
  (gatherTypes (registerBaseTypes {}) [Keyword.interface.item (some "demo") "IQuiet"]).2

def quietTypes : Namespace := (gatherTypes quietBase [.interface quietInterface]).2

def quietMethod : Method where
  typeName := "void"
  returnType := VOID_TYPE
  dimension := 0
  oneway := false
  name := "clear"
  args := [⟨none, INT_TYPE, 0, "level"⟩]

theorem quiet_files : parsePreprocessedFiles quietSources (registerBaseTypes {})
    quietOptions.preprocessedFiles = some (false, quietBase) := by
  have hfile : parsePreprocessedFile (registerBaseTypes {}) "interface demo.IQuiet;\n".toList =
      some (false, quietBase) := by
    have hwritten : ∀ item ∈ [DocumentItem.interface quietInterface], item.Written := by
      intro item hitem
      rw [List.mem_singleton.1 hitem]
      exact DocumentItem.written_of_all trivial (by decide) (by decide) (by decide)
    have htext : "interface demo.IQuiet;\n".toList =
        preprocessAidl [.interface quietInterface] := by decide
    have hitems : [DocumentItem.interface quietInterface].map DocumentItem.preprocessed =
        [Keyword.interface.item (some "demo") "IQuiet"] := by decide
    rw [htext, parsePreprocessedFile_docs hwritten, hitems, quietBase]
  rw [quietOptions, parsePreprocessedFiles]
  simp only [quietSources, hfile, parsePreprocessedFiles, Option.map_some, Bool.or_false]

theorem quiet_compiled :
    compileAidl quietSources quietOptions = .generate quietTypes quietInterface [0] := by
  have hparse : quietSources.parse quietOptions.inputFileName =
      some ([.interface quietInterface], []) := rfl
  have hnames : checkFilenames quietSources.cwd quietOptions.inputFileName
      [.interface quietInterface] = false := by decide
  have hgather : gatherTypes quietBase [.interface quietInterface] = (false, quietTypes) :=
    Prod.ext (by decide +kernel) (by rw [quietTypes])
  have htypes : checkTypes quietTypes [.interface quietInterface] = false := by decide +kernel
  have hids : checkAndAssignMethodIds quietInterface.items = some [0] := by decide
  unfold compileAidl
  rw [quiet_files, hparse]
  simp only [readImports, checkDocuments, hnames, List.any_nil, List.flatMap_nil, List.append_nil,
    hgather, htypes, exactlyOneInterface, hids]
  rfl

/-- Its method is generated as a two-way one. -/
theorem generated_oneway_quiet :
    [quietMethod].map (·.oneway) = quietInterface.items.map fun i =>
      i.oneway || (quietInterface.oneway && (quietBase.findIn (some "demo") "IQuiet").isNone) :=
  generated_oneway quiet_compiled quiet_files (by decide) (by decide +kernel)

end Aidl
