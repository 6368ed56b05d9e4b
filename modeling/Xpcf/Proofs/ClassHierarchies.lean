import Xpcf.CodeLib.Occurrences
import Xpcf.Model.Descriptors

/-!
# Walking over the bases of a class

`parseMethods` remembers the classes it has been to by their names without the
scope.  Where two distinct bases never share such a name, it goes to each of
them once, in the order of their first occurrences in the tree of bases, and
the methods it collects are theirs.
-/

namespace Xpcf.GrpcGen

open CodeLib

/-! ## The hierarchy of a class -/

mutual

/-- The bases of a class, then the class.  A class that is inherited several
times stands there several times. -/
def CppClass.hierarchy : CppClass → List CppClass
  | .mk entity bases => bases.hierarchy ++ [.mk entity bases]

def BaseClasses.hierarchy : BaseClasses → List CppClass
  | .nil => []
  | .unknown _ rest => rest.hierarchy
  | .known _ cls rest => cls.hierarchy ++ rest.hierarchy

end

/-- The distinct bases of a class, direct or not. -/
def CppClass.distinctBases (c : CppClass) : List CppClass := firstOccurrences c.bases.hierarchy

theorem CppClass.mem_distinctBases {c b : CppClass} :
    b ∈ c.distinctBases ↔ b ∈ c.bases.hierarchy := mem_firstOccurrences

theorem CppClass.hierarchy_eq (c : CppClass) : c.hierarchy = c.bases.hierarchy ++ [c] := by
  cases c with
  | mk entity bases => rw [CppClass.hierarchy, CppClass.bases]

theorem CppClass.self_mem_hierarchy (c : CppClass) : c ∈ c.hierarchy := by
  rw [hierarchy_eq]
  simp

mutual

theorem CppClass.sizeOf_le_of_mem : ∀ (c : CppClass) {b : CppClass}, b ∈ c.hierarchy →
    sizeOf b ≤ sizeOf c
  | .mk entity bases, b, h => by
    rw [CppClass.hierarchy, List.mem_append, List.mem_singleton] at h
    cases h with
    | inl h =>
      have hlt := bases.sizeOf_lt_of_mem h
      simp only [CppClass.mk.sizeOf_spec]
      omega
    | inr h => rw [h]

theorem BaseClasses.sizeOf_lt_of_mem : ∀ (bases : BaseClasses) {b : CppClass},
    b ∈ bases.hierarchy → sizeOf b < sizeOf bases
  | .nil, b, h => absurd h List.not_mem_nil
  | .unknown name rest, b, h => by
    have hlt := rest.sizeOf_lt_of_mem h
    simp only [BaseClasses.unknown.sizeOf_spec]
    omega
  | .known name cls rest, b, h => by
    rw [BaseClasses.hierarchy, List.mem_append] at h
    simp only [BaseClasses.known.sizeOf_spec]
    cases h with
    | inl h =>
      have hle := cls.sizeOf_le_of_mem h
      omega
    | inr h =>
      have hlt := rest.sizeOf_lt_of_mem h
      omega

end

/-- A class is larger than its bases. -/
theorem CppClass.sizeOf_lt_of_mem_bases {c b : CppClass} (h : b ∈ c.bases.hierarchy) :
    sizeOf b < sizeOf c := by
  cases c with
  | mk entity bases =>
    have hlt := bases.sizeOf_lt_of_mem h
    simp only [CppClass.mk.sizeOf_spec]
    omega

mutual

/-- What is below a class of the hierarchy is in the hierarchy. -/
theorem CppClass.hierarchy_trans : ∀ (c : CppClass) {b x : CppClass}, b ∈ c.hierarchy →
    x ∈ b.hierarchy → x ∈ c.hierarchy
  | .mk entity bases, b, x, hb, hx => by
    rw [CppClass.hierarchy, List.mem_append, List.mem_singleton] at hb
    cases hb with
    | inl hb =>
      rw [CppClass.hierarchy]
      exact List.mem_append_left _ (bases.hierarchy_trans hb hx)
    | inr hb => exact hb ▸ hx

theorem BaseClasses.hierarchy_trans : ∀ (bases : BaseClasses) {b x : CppClass},
    b ∈ bases.hierarchy → x ∈ b.hierarchy → x ∈ bases.hierarchy
  | .nil, b, x, hb, hx => absurd hb List.not_mem_nil
  | .unknown name rest, b, x, hb, hx => rest.hierarchy_trans hb hx
  | .known name cls rest, b, x, hb, hx => by
    rw [BaseClasses.hierarchy, List.mem_append] at hb ⊢
    cases hb with
    | inl hb => exact Or.inl (cls.hierarchy_trans hb hx)
    | inr hb => exact Or.inr (rest.hierarchy_trans hb hx)

end

/-! ## Methods -/

/-- `= 0`. -/
def CppMemberFunction.isPureVirtual (m : CppMemberFunction) : Bool := m.isVirtual && m.isPure

/-- The pure virtual methods that a class itself declares. -/
def CppClass.pureMethods (c : CppClass) : List CppMemberFunction :=
  c.entity.memberFunctions.filter CppMemberFunction.isPureVirtual

namespace MethodDescriptor

theorem readAttribute_baseMethod (m : MethodDescriptor) (attrib : CppAttribute) :
    (m.readAttribute attrib).baseMethod = m.baseMethod ∧
      (m.readAttribute attrib).pureVirtual = m.pureVirtual := by
  unfold readAttribute
  split
  · split <;> exact ⟨rfl, rfl⟩
  · exact ⟨rfl, rfl⟩

theorem foldl_readAttribute (attributes : List CppAttribute) (m : MethodDescriptor) :
    (attributes.foldl readAttribute m).baseMethod = m.baseMethod ∧
      (attributes.foldl readAttribute m).pureVirtual = m.pureVirtual := by
  induction attributes generalizing m with
  | nil => exact ⟨rfl, rfl⟩
  | cons attrib rest ih =>
    have hstep := m.readAttribute_baseMethod attrib
    rw [List.foldl_cons, (ih _).1, (ih _).2]
    exact hstep

/-- The descriptor made of a member function. -/
theorem parse_new (m : CppMemberFunction) (compressionDisabled : Bool) :
    ((new m compressionDisabled).parse).baseMethod = m ∧
      ((new m compressionDisabled).parse).pureVirtual = m.isPureVirtual := by
  have hread := foldl_readAttribute m.attributes
    { new m compressionDisabled with isConst := m.isConst }
  unfold parse
  dsimp only
  split
  · rename_i htemplate
    have hvirtual : m.isPureVirtual = false := by
      rw [CppMemberFunction.isPureVirtual, m.not_isVirtual htemplate, Bool.false_and]
    rw [hvirtual]
    exact hread
  · exact ⟨hread.1, rfl⟩

end MethodDescriptor

/-- The descriptors of the pure virtual methods of a class. -/
def CppClass.descriptors (compressionDisabled : Bool) (c : CppClass) : List MethodDescriptor :=
  c.pureMethods.map fun m => (MethodDescriptor.new m compressionDisabled).parse

/-! ## The table of positions -/

theorem keys_pushIndex (name : String) (index : Nat) (groups : List (String × List Nat)) :
    (pushIndex name index groups).map Prod.fst = addNew (groups.map Prod.fst) name := by
  induction groups with
  | nil => rfl
  | cons entry rest ih =>
    unfold pushIndex
    split
    · rename_i heq
      simp [addNew, heq]
    · rename_i hne
      rw [List.map_cons, ih, List.map_cons]
      unfold addNew
      by_cases hmem : name ∈ rest.map Prod.fst
      · rw [if_pos hmem, if_pos (List.mem_cons_of_mem _ hmem)]
      · rw [if_neg hmem, if_neg (by simp_all [eq_comm]), List.cons_append]

/-- An entry of the new table is an old one with one position more, a new one,
or an old one of another name. -/
theorem mem_pushIndex {name : String} {index : Nat} {groups : List (String × List Nat)}
    {group : String × List Nat} (hnodup : (groups.map Prod.fst).Nodup)
    (h : group ∈ pushIndex name index groups) :
    (∃ old, (name, old) ∈ groups ∧ group = (name, old ++ [index])) ∨
      (name ∉ groups.map Prod.fst ∧ group = (name, [index])) ∨
      (group ∈ groups ∧ group.1 ≠ name) := by
  induction groups with
  | nil => exact Or.inr (Or.inl ⟨List.not_mem_nil, List.mem_singleton.mp h⟩)
  | cons entry rest ih =>
    rw [List.map_cons, List.nodup_cons] at hnodup
    unfold pushIndex at h
    split at h
    · rename_i heq
      cases List.mem_cons.mp h with
      | inl hhead =>
        exact Or.inl ⟨entry.2, by rw [← heq]; exact List.mem_cons_self, hhead⟩
      | inr htail =>
        refine Or.inr (Or.inr ⟨List.mem_cons_of_mem _ htail, fun hname => hnodup.1 ?_⟩)
        rw [heq, ← hname]
        exact List.mem_map_of_mem htail
    · rename_i hne
      cases List.mem_cons.mp h with
      | inl hhead => exact Or.inr (Or.inr ⟨hhead ▸ List.mem_cons_self, hhead ▸ hne⟩)
      | inr htail =>
        rcases ih hnodup.2 htail with ⟨old, hold, heq⟩ | ⟨hnew, heq⟩ | ⟨hmem, hother⟩
        · exact Or.inl ⟨old, List.mem_cons_of_mem _ hold, heq⟩
        · refine Or.inr (Or.inl ⟨?_, heq⟩)
          rw [List.map_cons, List.mem_cons]
          exact fun h1 => h1.elim (fun h2 => hne h2.symm) hnew
        · exact Or.inr (Or.inr ⟨List.mem_cons_of_mem _ hmem, hother⟩)

theorem indexes_pushIndex {groups : List (String × List Nat)} {names : List String}
    (h : Indexes groups names) (name : String) :
    Indexes (pushIndex name names.length groups) (names ++ [name]) where
  nodup_keys := by
    rw [keys_pushIndex]
    exact nodup_addNew h.nodup_keys name
  positions_of_mem := fun group hgroup => by
    rw [positions_concat]
    rcases mem_pushIndex h.nodup_keys hgroup with ⟨old, hold, rfl⟩ | ⟨hnew, rfl⟩ | ⟨hmem, hother⟩
    · rw [if_pos rfl, ← h.positions_of_mem _ hold]
    · have hnone : positions names name = [] := by
        rw [← List.length_eq_zero_iff, length_positions, List.count_eq_zero]
        exact fun hname => hnew ((h.exists_of_mem name).mpr hname)
      rw [if_pos rfl, hnone]
      rfl
    · rw [if_neg (Ne.symm hother)]
      exact h.positions_of_mem group hmem
  exists_of_mem := fun other => by
    rw [keys_pushIndex, mem_addNew, h.exists_of_mem, List.mem_append, List.mem_singleton]

/-! ## What parsing collects -/

/-- The state of `parseMethods` once it is done with the classes `done`, in
that order, while it is inside the classes `path`. -/
structure Tracks (compressionDisabled : Bool) (s : ParsedMethods) (path done : List CppClass) :
    Prop where
  methods : s.virtualMethods = done.flatMap (CppClass.descriptors compressionDisabled)
  indexes : Indexes s.virtualMethodsMap (s.virtualMethods.map MethodDescriptor.name)
  classParsed : ∀ name, name ∈ s.classParsed ↔ ∃ c, (c ∈ done ∨ c ∈ path) ∧ c.name = name
  closed : ∀ c ∈ done, ∀ b ∈ c.hierarchy, b ∈ done

namespace Tracks

variable {compressionDisabled : Bool} {s : ParsedMethods} {path done : List CppClass}

theorem empty : Tracks compressionDisabled ParsedMethods.empty [] [] where
  methods := rfl
  indexes := Indexes.empty
  classParsed := by simp [ParsedMethods.empty]
  closed := fun c h => absurd h List.not_mem_nil

theorem readBaseName (h : Tracks compressionDisabled s path done) (name : String) :
    Tracks compressionDisabled (s.readBaseName name) path done := ⟨h.1, h.2, h.3, h.4⟩

theorem markParsed (h : Tracks compressionDisabled s path done) (c : CppClass) :
    Tracks compressionDisabled (s.markParsed c.name) (c :: path) done where
  methods := h.methods
  indexes := h.indexes
  classParsed := fun name => by
    have hmark : name ∈ (s.markParsed c.name).classParsed ↔
        name ∈ s.classParsed ∨ name = c.name := by
      simp [ParsedMethods.markParsed]
    rw [hmark, h.classParsed]
    constructor
    · rintro (⟨x, hx, hname⟩ | hname)
      · exact ⟨x, hx.imp_right (List.mem_cons_of_mem c), hname⟩
      · exact ⟨c, Or.inr List.mem_cons_self, hname.symm⟩
    · rintro ⟨x, hdone | hpath, hname⟩
      · exact Or.inl ⟨x, Or.inl hdone, hname⟩
      · cases List.mem_cons.mp hpath with
        | inl heq => exact Or.inr (heq ▸ hname.symm)
        | inr hrest => exact Or.inl ⟨x, Or.inr hrest, hname⟩
  closed := h.closed

end Tracks

/-- The method loop adds the descriptors of the pure virtual methods. -/
theorem addMethods_eq (compressionDisabled : Bool) (c : CppClass) (s : ParsedMethods)
    (h : Indexes s.virtualMethodsMap (s.virtualMethods.map MethodDescriptor.name)) :
    let s1 := s.addMethods compressionDisabled c.entity
    s1.virtualMethods = s.virtualMethods ++ c.descriptors compressionDisabled ∧
      Indexes s1.virtualMethodsMap (s1.virtualMethods.map MethodDescriptor.name) ∧
      s1.classParsed = s.classParsed := by
  unfold ParsedMethods.addMethods CppClass.descriptors CppClass.pureMethods
  induction c.entity.memberFunctions generalizing s with
  | nil => exact ⟨(List.append_nil _).symm, h, rfl⟩
  | cons m rest ih =>
    have hparse := MethodDescriptor.parse_new m compressionDisabled
    rw [List.foldl_cons]
    cases hpure : m.isPureVirtual with
    | false =>
      have hskip : s.addMethod compressionDisabled m = s := by
        unfold ParsedMethods.addMethod
        rw [if_neg (by rw [hparse.2, hpure]; exact Bool.false_ne_true)]
      rw [hskip, List.filter_cons_of_neg (by rw [hpure]; exact Bool.false_ne_true)]
      exact ih s h
    | true =>
      have hadd : s.addMethod compressionDisabled m =
          { s with
            virtualMethods :=
              s.virtualMethods ++ [(MethodDescriptor.new m compressionDisabled).parse]
            virtualMethodsMap := pushIndex
              (MethodDescriptor.new m compressionDisabled).parse.name s.virtualMethods.length
              s.virtualMethodsMap } := by
        unfold ParsedMethods.addMethod
        rw [if_pos (by rw [hparse.2, hpure])]
      have hindexes := indexes_pushIndex h
        (MethodDescriptor.new m compressionDisabled).parse.name
      rw [List.length_map] at hindexes
      rw [hadd, List.filter_cons_of_pos hpure, List.map_cons]
      obtain ⟨hmethods, hmap, hnames⟩ := ih
        { s with
          virtualMethods :=
            s.virtualMethods ++ [(MethodDescriptor.new m compressionDisabled).parse]
          virtualMethodsMap := pushIndex
            (MethodDescriptor.new m compressionDisabled).parse.name s.virtualMethods.length
            s.virtualMethodsMap }
        (by rw [List.map_append]; exact hindexes)
      refine ⟨?_, hmap, hnames⟩
      rw [hmethods, List.append_assoc, List.singleton_append]

/-- The names of the classes of `scope` tell them apart. -/
def NamesApart (scope : List CppClass) : Prop :=
  ∀ c ∈ scope, ∀ c1 ∈ scope, c.name = c1.name → c = c1

instance (scope : List CppClass) : Decidable (NamesApart scope) :=
  inferInstanceAs (Decidable (∀ c ∈ scope, ∀ c1 ∈ scope, c.name = c1.name → c = c1))

section Walk

variable {compressionDisabled : Bool} {scope : List CppClass}

mutual

/-- Parsing a class goes through its hierarchy.  The classes on the path are
larger, so the walk does not meet them again. -/
theorem parseMethods_tracks (hapart : NamesApart scope) : ∀ (c : CppClass)
    {s : ParsedMethods} {path done : List CppClass},
    Tracks compressionDisabled s (c :: path) done → (∀ p ∈ c :: path, p ∈ scope) →
    (∀ d ∈ done, d ∈ scope) → (∀ b ∈ c.hierarchy, b ∈ scope) →
    (∀ p ∈ path, sizeOf c < sizeOf p) → c ∉ done →
    Tracks compressionDisabled (parseMethods compressionDisabled c s) path
      (c.hierarchy.foldl addNew done)
  | .mk entity bases, s, path, done, h, hpath, hdone, hscope, hsize, hnew => by
    have hbases : ∀ b ∈ bases.hierarchy, b ∈ scope := fun b hb => by
      refine hscope b ?_
      rw [CppClass.hierarchy]
      exact List.mem_append_left _ hb
    have hsmall : ∀ b ∈ bases.hierarchy, sizeOf b < sizeOf (CppClass.mk entity bases) :=
      fun b hb => CppClass.sizeOf_lt_of_mem_bases (c := .mk entity bases) hb
    have hwalk := parseBases_tracks hapart bases h hpath hdone hbases fun b hb p hp => by
      cases List.mem_cons.mp hp with
      | inl heq => exact heq ▸ hsmall b hb
      | inr hrest =>
        have hlt := hsmall b hb
        have hlt1 := hsize p hrest
        omega
    have hself : CppClass.mk entity bases ∉ bases.hierarchy.foldl addNew done := fun hmem => by
      cases mem_foldl_addNew.mp hmem with
      | inl hold => exact hnew hold
      | inr hbelow => exact absurd (hsmall _ hbelow) (Nat.lt_irrefl _)
    have hfold : (CppClass.mk entity bases).hierarchy.foldl addNew done =
        bases.hierarchy.foldl addNew done ++ [.mk entity bases] := by
      rw [CppClass.hierarchy, List.foldl_append]
      exact if_neg hself
    obtain ⟨hmethods, hindexes, hnames⟩ := addMethods_eq compressionDisabled (.mk entity bases)
      (parseBases compressionDisabled bases s) hwalk.indexes
    rw [parseMethods, hfold]
    refine ⟨?_, hindexes, fun name => ?_, fun c hc b hb => ?_⟩
    · rw [List.flatMap_append, ← hwalk.methods, List.flatMap_singleton]
      exact hmethods
    · refine (iff_of_eq (congrArg (name ∈ ·) hnames)).trans ((hwalk.classParsed name).trans ?_)
      simp only [List.mem_append, List.mem_cons, List.not_mem_nil, or_false]
      constructor
      · rintro ⟨x, hx | hx | hx, hname⟩
        · exact ⟨x, Or.inl (Or.inl hx), hname⟩
        · exact ⟨x, Or.inl (Or.inr hx), hname⟩
        · exact ⟨x, Or.inr hx, hname⟩
      · rintro ⟨x, (hx | hx) | hx, hname⟩
        · exact ⟨x, Or.inl hx, hname⟩
        · exact ⟨x, Or.inr (Or.inl hx), hname⟩
        · exact ⟨x, Or.inr (Or.inr hx), hname⟩
    · cases List.mem_append.mp hc with
      | inl hold => exact List.mem_append_left _ (hwalk.closed c hold b hb)
      | inr hlast =>
        rw [List.mem_singleton.mp hlast, CppClass.hierarchy] at hb
        cases List.mem_append.mp hb with
        | inl hbelow => exact List.mem_append_left _ (mem_foldl_addNew.mpr (Or.inr hbelow))
        | inr heq => exact List.mem_append_right _ heq

theorem parseBases_tracks (hapart : NamesApart scope) : ∀ (bases : BaseClasses) {s : ParsedMethods}
    {path done : List CppClass}, Tracks compressionDisabled s path done →
    (∀ p ∈ path, p ∈ scope) → (∀ d ∈ done, d ∈ scope) → (∀ b ∈ bases.hierarchy, b ∈ scope) →
    (∀ b ∈ bases.hierarchy, ∀ p ∈ path, sizeOf b < sizeOf p) →
    Tracks compressionDisabled (parseBases compressionDisabled bases s) path
      (bases.hierarchy.foldl addNew done)
  | .nil, s, path, done, h, _, _, _, _ => h
  | .unknown name rest, s, path, done, h, hpath, hdone, hscope, hsize => by
    rw [parseBases]
    exact parseBases_tracks hapart rest (h.readBaseName name) hpath hdone hscope hsize
  | .known name cls rest, s, path, done, h, hpath, hdone, hscope, hsize => by
    have hleft : ∀ b ∈ cls.hierarchy, b ∈ (BaseClasses.known name cls rest).hierarchy :=
      fun b hb => List.mem_append_left _ hb
    have hright : ∀ b ∈ rest.hierarchy, b ∈ (BaseClasses.known name cls rest).hierarchy :=
      fun b hb => List.mem_append_right _ hb
    have hcls : cls ∈ scope := hscope cls (hleft cls cls.self_mem_hierarchy)
    have h1 := h.readBaseName name
    rw [parseBases, BaseClasses.hierarchy, List.foldl_append]
    split
    · rename_i hknown
      -- the class of that name is this one, and it is done
      obtain ⟨x, hx, hname⟩ := (h1.classParsed cls.name).mp (List.contains_iff_mem.mp hknown)
      have hmem : cls ∈ done := by
        cases hx with
        | inl hin => exact hapart x (hdone x hin) cls hcls hname ▸ hin
        | inr hin =>
          have heq := hapart x (hpath x hin) cls hcls hname
          have hlt := hsize cls (hleft cls cls.self_mem_hierarchy) x hin
          rw [heq] at hlt
          exact absurd hlt (Nat.lt_irrefl _)
      rw [foldl_addNew_of_subset (h.closed cls hmem)]
      exact parseBases_tracks hapart rest h1 hpath hdone (fun b hb => hscope b (hright b hb))
        fun b hb => hsize b (hright b hb)
    · rename_i hunknown
      have hnew : cls ∉ done := fun hmem => hunknown (List.contains_iff_mem.mpr
        ((h1.classParsed cls.name).mpr ⟨cls, Or.inl hmem, rfl⟩))
      have hpath1 : ∀ p ∈ cls :: path, p ∈ scope := fun p hp => by
        cases List.mem_cons.mp hp with
        | inl heq => exact heq ▸ hcls
        | inr hrest => exact hpath p hrest
      have hwalk := parseMethods_tracks hapart cls (h1.markParsed cls) hpath1 hdone
        (fun b hb => hscope b (hleft b hb))
        (hsize cls (hleft cls cls.self_mem_hierarchy)) hnew
      refine parseBases_tracks hapart rest hwalk hpath (fun d hd => ?_)
        (fun b hb => hscope b (hright b hb)) fun b hb => hsize b (hright b hb)
      cases mem_foldl_addNew.mp hd with
      | inl hold => exact hdone d hold
      | inr hin => exact hscope d (hleft d hin)

end

end Walk

/-! ## Parsing a whole class -/

theorem addMethods_classParsed (compressionDisabled : Bool) (s : ParsedMethods) (c : ClassEntity) :
    (s.addMethods compressionDisabled c).classParsed = s.classParsed := by
  unfold ParsedMethods.addMethods
  induction c.memberFunctions generalizing s with
  | nil => rfl
  | cons m rest ih =>
    rw [List.foldl_cons, ih]
    unfold ParsedMethods.addMethod
    dsimp only
    split
    · rfl
    · rfl

mutual

/-- The guard lets every name in once. -/
theorem nodup_parseMethods (compressionDisabled : Bool) : ∀ (c : CppClass) (s : ParsedMethods),
    s.classParsed.Nodup → (parseMethods compressionDisabled c s).classParsed.Nodup
  | .mk entity bases, s, h => by
    rw [parseMethods, addMethods_classParsed]
    exact nodup_parseBases compressionDisabled bases s h

theorem nodup_parseBases (compressionDisabled : Bool) : ∀ (bases : BaseClasses)
    (s : ParsedMethods), s.classParsed.Nodup →
    (parseBases compressionDisabled bases s).classParsed.Nodup
  | .nil, s, h => h
  | .unknown name rest, s, h => by
    rw [parseBases]
    exact nodup_parseBases compressionDisabled rest _ h
  | .known name cls rest, s, h => by
    rw [parseBases]
    split
    · exact nodup_parseBases compressionDisabled rest _ h
    · rename_i hunknown
      refine nodup_parseBases compressionDisabled rest _
        (nodup_parseMethods compressionDisabled cls _ ?_)
      refine List.nodup_append.mpr ⟨h, List.nodup_singleton _, fun x hx y hy hxy => hunknown ?_⟩
      rw [List.contains_iff_mem, ← List.mem_singleton.mp hy, ← hxy]
      exact hx

end

/-- The pure virtual methods of the distinct bases of a class and of the class. -/
def CppClass.allPureMethods (c : CppClass) : List CppMemberFunction :=
  (c.distinctBases ++ [c]).flatMap CppClass.pureMethods

/-- With bases that are told apart, parsing collects them and their methods. -/
theorem parseMethods_eq {c : CppClass} (hapart : NamesApart c.distinctBases)
    (compressionDisabled : Bool) :
    let parsed := parseMethods compressionDisabled c ParsedMethods.empty
    parsed.virtualMethods = c.allPureMethods.map
        (fun m => (MethodDescriptor.new m compressionDisabled).parse) ∧
      Indexes parsed.virtualMethodsMap (parsed.virtualMethods.map MethodDescriptor.name) ∧
      parsed.classParsed.Perm (c.distinctBases.map CppClass.name) := by
  have hwalk : Tracks compressionDisabled
      (parseBases compressionDisabled c.bases ParsedMethods.empty) [] c.distinctBases :=
    parseBases_tracks hapart c.bases Tracks.empty (fun p hp => absurd hp List.not_mem_nil)
      (fun d hd => absurd hd List.not_mem_nil) (fun b hb => CppClass.mem_distinctBases.mpr hb)
      fun b _ p hp => absurd hp List.not_mem_nil
  have hparse : parseMethods compressionDisabled c ParsedMethods.empty =
      (parseBases compressionDisabled c.bases ParsedMethods.empty).addMethods
        compressionDisabled c.entity := by
    cases c with
    | mk entity bases => rw [parseMethods, CppClass.bases, CppClass.entity]
  obtain ⟨hmethods, hindexes, hnames⟩ := addMethods_eq compressionDisabled c _ hwalk.indexes
  rw [hparse]
  refine ⟨?_, hindexes, ?_⟩
  · rw [hmethods, hwalk.methods, CppClass.allPureMethods, List.flatMap_append,
      List.flatMap_singleton, List.map_append, List.map_flatMap]
    rfl
  · have hnodup := nodup_parseMethods compressionDisabled c ParsedMethods.empty List.nodup_nil
    rw [hparse] at hnodup
    have hnodup1 : (c.distinctBases.map CppClass.name).Nodup :=
      (List.nodup_map_iff_inj_on (nodup_firstOccurrences _)).mpr hapart
    refine (List.perm_ext_iff_of_nodup hnodup hnodup1).mpr fun name => ?_
    rw [hnames, hwalk.classParsed, List.mem_map]
    simp

namespace ClassDescriptor

theorem readAttribute_baseClass {env : Env} {c c1 : ClassDescriptor} {attrib : CppAttribute}
    (h : readAttribute env c attrib = .ok c1) :
    c1.baseClass = c.baseClass ∧ c1.isInterface = c.isInterface := by
  unfold readAttribute at h
  split at h
  · obtain ⟨uuid, -, hc1⟩ := bind_eq_ok.mp h
    cases hc1
    exact ⟨rfl, rfl⟩
  · obtain ⟨uuid, -, hc1⟩ := bind_eq_ok.mp h
    cases hc1
    exact ⟨rfl, rfl⟩
  · cases h
    exact ⟨rfl, rfl⟩
  · cases h
    exact ⟨rfl, rfl⟩

theorem readAttributes_baseClass {env : Env} {attributes : List CppAttribute}
    {c c1 : ClassDescriptor} (h : readAttributes env attributes c = .ok c1) :
    c1.baseClass = c.baseClass ∧ c1.isInterface = c.isInterface := by
  induction attributes generalizing c with
  | nil =>
    cases h
    exact ⟨rfl, rfl⟩
  | cons attrib rest ih =>
    unfold readAttributes at h
    split at h
    · cases h
      exact ⟨rfl, rfl⟩
    · obtain ⟨c2, hread, hrest⟩ := bind_eq_ok.mp h
      have hstep := readAttribute_baseClass hread
      have hend := ih hrest
      exact ⟨hend.1.trans hstep.1, hend.2.trans hstep.2⟩

/-- An interface was not ignored: all its attributes were read, and then its
methods. -/
theorem parse_of_isInterface {env : Env} {c : CppClass} {nameSpace : String} {d : ClassDescriptor}
    (h : parse env (new c nameSpace) = .ok d) (hinterface : d.isInterface = true) :
    ∃ c1, readAttributes env c.entity.attributes (new c nameSpace) = .ok c1 ∧
      c1.ignored = false ∧ d = c1.parseInterface := by
  unfold parse at h
  obtain ⟨c1, hread, hend⟩ := bind_eq_ok.mp h
  split at hend
  · cases hend
    rw [(readAttributes_baseClass hread).2] at hinterface
    exact absurd hinterface Bool.false_ne_true
  · rename_i hkeep
    rw [Bool.or_eq_true, not_or, Bool.not_eq_true] at hkeep
    exact ⟨c1, hread, hkeep.1, (Except.ok.inj hend).symm⟩

/-- An interface has the methods of `parseMethods`, with their rpc names. -/
theorem parse_isInterface {env : Env} {c : CppClass} {nameSpace : String} {d : ClassDescriptor}
    (h : parse env (new c nameSpace) = .ok d) (hinterface : d.isInterface = true) :
    let parsed := parseMethods d.compressionDisabled c ParsedMethods.empty
    d.classParsed = parsed.classParsed ∧
      d.methods = generateRpcMapping parsed.virtualMethodsMap parsed.virtualMethods := by
  obtain ⟨c1, hread, _, rfl⟩ := parse_of_isInterface h hinterface
  have hbase : c1.baseClass = c := (readAttributes_baseClass hread).1
  unfold parseInterface at hinterface ⊢
  rw [hbase] at hinterface ⊢
  exact ⟨rfl, if_pos hinterface⟩

end ClassDescriptor

end Xpcf.GrpcGen
