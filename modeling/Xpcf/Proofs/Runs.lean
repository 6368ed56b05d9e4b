import Xpcf.Proofs.Declaring

/-!
# Operations and histories

Every operation of a factory is a declaration, a resolution, a query or a
`clear`.  Declarations stay in `declarationFrame` and resolutions in any frame
that `Governs` them; what each operation of a history keeps, the history keeps.
-/

namespace Xpcf

open CodeLib CodeLib.Exec

/-! ## One operation -/

/-- The operations that write tables and metadata. -/
def Operation.isDeclaration : Operation → Bool
  | .autobind _ _ | .bind _ _ | .bindMethod _ _ _ | .declareAlias _ _ _ | .load _ _
  | .loadFolder _ | .loadModuleMetadata _ | .loadModules _ => true
  | _ => false

/-- The operations that create components, and the queries. -/
def Operation.isResolution : Operation → Bool
  | .resolve _ _ | .resolveNamed _ _ _ | .resolveAll _ _ | .inject _ _ | .createComponent _ _
  | .query _ => true
  | _ => false

theorem Operation.cases (op : Operation) :
    op.isDeclaration = true ∨ op.isResolution = true ∨ op = .clear := by
  cases op <;> simp [isDeclaration, isResolution]

theorem AdmitsDeclarations.perform {F : Frame World} (hF : AdmitsDeclarations F) (env : Env)
    (fuel : Nat) {op : Operation} (hop : op.isDeclaration = true) :
    Keeps F (perform env fuel op) := by
  cases op with
  | autobind I C => exact Keeps.bind (hF.modifyContext _) fun _ => Keeps.pure _
  | bind key b => exact Keeps.bind (hF.modifyContext _) fun _ => Keeps.pure _
  | bindMethod key func b => exact Keeps.bind (hF.modifyContext _) fun _ => Keeps.pure _
  | declareAlias t n u =>
    exact Keeps.bind (keeps_addAliasFunction hF.factory t n u false) fun _ => Keeps.pure _
  | load path file => exact Keeps.bind (hF.loadLibrary env path file) fun _ => Keeps.pure _
  | loadFolder files => exact Keeps.bind (hF.loadFolder env files) fun _ => Keeps.pure _
  | loadModuleMetadata library =>
    exact Keeps.bind (hF.loadModuleMetadata env library) fun _ => Keeps.pure _
  | loadModules folder => exact Keeps.bind (hF.loadModules env folder) fun _ => Keeps.pure _
  | resolve _ _ | resolveNamed _ _ _ | resolveAll _ _ | inject _ _ | createComponent _ _ | query _
  | clear => cases hop

theorem declares_perform (env : Env) (fuel : Nat) {op : Operation} (hop : op.isDeclaration = true) :
    Keeps declarationFrame (perform env fuel op) :=
  declarationFrame_admits.perform env fuel hop

/-- A resolution stays in every frame that governs all bindings. -/
theorem Governs.keeps_perform {env : Env} {f0 : Factory} {F : Frame World}
    (hF : Governs env f0 F fun _ => True) (fuel : Nat) {op : Operation}
    (hop : op.isResolution = true) : Keeps F (perform env fuel op) := by
  have hrc := resolveComponent_sound hF fuel
  cases op with
  | resolve I ctx =>
    exact Keeps.bind (keeps_resolveWith hF hrc (fun _ _ => trivial) ctx) fun _ => Keeps.pure _
  | resolveNamed I name ctx =>
    exact Keeps.bind (keeps_resolveNamedWith hF hrc (fun _ _ => trivial) name ctx) fun _ =>
      Keeps.pure _
  | resolveAll I ctx =>
    exact Keeps.bind (keeps_resolveAllWith hF hrc (fun _ _ => trivial) ctx) fun _ => Keeps.pure _
  | inject component ctx =>
    exact Keeps.bind (keeps_injectWith hF hrc (fun _ _ _ _ _ => trivial) ctx) fun _ => Keeps.pure _
  | createComponent name C =>
    exact Keeps.bind (keeps_createComponentWith hF hrc (fun _ _ _ _ _ _ _ _ _ => trivial) name)
      fun _ => Keeps.pure _
  | query q => exact Keeps.bind (Keeps.gets _) fun w => Keeps.ofExcept _
  | autobind _ _ | bind _ _ | bindMethod _ _ _ | declareAlias _ _ _ | load _ _ | loadFolder _
  | loadModuleMetadata _ | loadModules _ | clear => cases hop

/-! ## Histories -/

/-- The history goes on after an operation that ended so. -/
def GoesOn : Outcome Exc Observation → Prop
  | .ok _ | .throws _ => True
  | .diverges | .undefined => False

/-- The history performs the operation, in this world. -/
inductive Performs (env : Env) (fuel : Nat) (op : Operation) (w : World) :
    List Operation → World → Prop where
  | here (rest : List Operation) : Performs env fuel op w (op :: rest) w
  | later {first : Operation} {rest : List Operation} {w0 : World}
      (hfirst : GoesOn (perform env fuel first w0).1)
      (h : Performs env fuel op w rest (perform env fuel first w0).2) :
      Performs env fuel op w (first :: rest) w0

theorem performAll_of_goesOn {env : Env} {fuel : Nat} {op : Operation} {rest : List Operation}
    {w : World} (h : GoesOn (perform env fuel op w).1) :
    (performAll env fuel (op :: rest) w).2 =
      (performAll env fuel rest (perform env fuel op w).2).2 := by
  rw [performAll]
  rcases hr : perform env fuel op w with ⟨result | e | _ | _, w1⟩
  · rfl
  · rfl
  · rw [hr] at h
    cases h
  · rw [hr] at h
    cases h

/-- A history ends with its first operation or goes on after it. -/
theorem performAll_cons (env : Env) (fuel : Nat) (op : Operation) (rest : List Operation)
    (w : World) :
    (performAll env fuel (op :: rest) w).2 = (perform env fuel op w).2 ∨
      GoesOn (perform env fuel op w).1 ∧
        (performAll env fuel (op :: rest) w).2 =
          (performAll env fuel rest (perform env fuel op w).2).2 := by
  by_cases hgoes : GoesOn (perform env fuel op w).1
  · exact .inr ⟨hgoes, performAll_of_goesOn hgoes⟩
  · left
    rw [performAll]
    rcases hr : perform env fuel op w with ⟨result | e | _ | _, w1⟩
    · rw [hr] at hgoes
      exact absurd trivial hgoes
    · rw [hr] at hgoes
      exact absurd trivial hgoes
    · rfl
    · rfl

theorem Performs.mem {env : Env} {fuel : Nat} {op : Operation} {ops : List Operation}
    {w w1 : World} (h : Performs env fuel op w1 ops w) : op ∈ ops := by
  induction h with
  | here rest => exact List.mem_cons_self
  | later _ _ ih => exact List.mem_cons_of_mem _ ih

/-- A relation that holds across every operation of a history holds across the
history. -/
theorem performAll_rel {env : Env} {fuel : Nat} {R : World → World → Prop}
    (hrefl : ∀ w, R w w) (htrans : ∀ {a b c}, R a b → R b c → R a c) {ops : List Operation}
    (hop : ∀ op ∈ ops, ∀ w, R w (perform env fuel op w).2) (w : World) :
    R w (performAll env fuel ops w).2 := by
  induction ops generalizing w with
  | nil => exact hrefl w
  | cons op rest ih =>
    have hfirst := hop op List.mem_cons_self w
    have hrest := ih fun op1 hm => hop op1 (List.mem_cons_of_mem op hm)
    unfold performAll
    rcases hr : perform env fuel op w with ⟨result | e | _ | _, w1⟩
    · rw [hr] at hfirst
      exact htrans hfirst (hrest w1)
    · rw [hr] at hfirst
      exact htrans hfirst (hrest w1)
    · rw [hr] at hfirst
      exact hfirst
    · rw [hr] at hfirst
      exact hfirst

end Xpcf
