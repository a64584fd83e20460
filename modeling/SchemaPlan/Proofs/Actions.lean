import SchemaPlan.World.Action
set_option autoImplicit false

/-!
# What actions that succeed have done

For each action: what its answer says about the world it was taken in, and which
world it leaves.
-/

namespace SchemaPlan.Action

variable {α β : Type}

/-! ## Sequences -/

/-- After an action that answers the next one is taken. -/
theorem bind_of_ok {first : Action α} {next : α → Action β} {w w₁ : World} {a : α}
    (h : first w = (.ok a, w₁)) : (first >>= next) w = next a w₁ := by
  rw [bind_apply, h]

/-- A sequence answers only if each of its actions does. -/
theorem bind_eq_ok {first : Action α} {next : α → Action β} {w w₂ : World} {b : β}
    (h : (first >>= next) w = (.ok b, w₂)) :
    ∃ a w₁, first w = (.ok a, w₁) ∧ next a w₁ = (.ok b, w₂) := by
  rw [bind_apply] at h
  split at h
  · next a w₁ hfirst => exact ⟨a, w₁, hfirst, h⟩
  · exact nomatch (Prod.mk.inj h).1

theorem ofExcept_of_ok {answer : Except Fault α} {a : α} (h : answer = .ok a) (w : World) :
    ofExcept answer w = (.ok a, w) := by
  rw [ofExcept, h]

theorem ofExcept_eq_ok {answer : Except Fault α} {w w₁ : World} {a : α}
    (h : ofExcept answer w = (.ok a, w₁)) : answer = .ok a ∧ w₁ = w :=
  ⟨(Prod.mk.inj h).1, (Prod.mk.inj h).2.symm⟩

theorem ofSchemaCheck_eq_ok {answer : Except SchemaFault α} {w w₁ : World} {a : α}
    (h : ofSchemaCheck answer w = (.ok a, w₁)) : answer = .ok a ∧ w₁ = w := by
  obtain ⟨hanswer, hworld⟩ := Prod.mk.inj h
  cases answer with
  | error _ => exact nomatch hanswer
  | ok a' => exact ⟨congrArg Except.ok (Except.ok.inj hanswer), hworld.symm⟩

/-! ## Files -/

theorem readFile_eq_ok {path text : String} {w w₁ : World}
    (h : readFile path w = (.ok text, w₁)) : w₁ = w := by
  unfold readFile at h
  split at h
  · exact (Prod.mk.inj h).2.symm
  · exact nomatch (Prod.mk.inj h).1

/-- Writing changes nothing but files. -/
theorem writeFile_eq_ok {path text : String} {w w₁ : World}
    (h : writeFile path text w = (.ok (), w₁)) :
    ∃ written, w.files.write? path text = some written ∧ w₁ = { w with files := written } := by
  cases hput : (w.files.prepare path).put? path text with
  | none =>
    simp only [writeFile, hput] at h
    exact nomatch (Prod.mk.inj h).1
  | some written =>
    simp only [writeFile, hput] at h
    exact ⟨written, hput, (Prod.mk.inj h).2.symm⟩

/-- A file that was written is read as it was written. -/
theorem readFile_of_writeFile {path text : String} {w w₁ : World}
    (h : writeFile path text w = (.ok (), w₁)) : readFile path w₁ = (.ok text, w₁) := by
  obtain ⟨written, hwritten, rfl⟩ := writeFile_eq_ok h
  simp only [readFile, Files.read?_write? hwritten]

/-! ## Servers -/

theorem logIn_eq_ok {login : Login} {w w₁ : World} (h : logIn login w = (.ok (), w₁)) :
    w.server.accepts login = true ∧ w₁ = { w with logins := w.logins ++ [login] } := by
  unfold logIn at h
  split at h
  · next haccepts => exact ⟨haccepts, (Prod.mk.inj h).2.symm⟩
  · exact nomatch (Prod.mk.inj h).1

/-- A catalog that was read is read by the same server at any time. -/
theorem readCatalog_eq_ok {login : Login} {entry : CatalogEntry} {w w₁ : World}
    (h : readCatalog login w = (.ok entry, w₁)) :
    w₁ = w ∧ ∀ v : World, v.server = w.server → readCatalog login v = (.ok entry, v) := by
  unfold readCatalog at h
  split at h
  · exact nomatch (Prod.mk.inj h).1
  · next hschemata =>
    split at h
    · exact nomatch (Prod.mk.inj h).1
    · next entry' hentry =>
      split at h
      · exact nomatch (Prod.mk.inj h).1
      · next hparts =>
        obtain ⟨hok, rfl⟩ := Prod.mk.inj h
        obtain rfl := Except.ok.inj hok
        refine ⟨rfl, fun v hv => ?_⟩
        rw [readCatalog, hv, if_neg hschemata]
        simp only [hentry, if_neg hparts]

end SchemaPlan.Action
