import Mathlib.Data.List.Nodup
import Mathlib.Data.List.Perm.Subperm
import ServiceIdl.Document.Query

/-!
# Services and what they extend

A chain of services is followed among services that get fewer: those of a name that was visited are
left out. Each part of a chain is a chain among the services that are left, so a chain is determined
by the whole document and by the names in front, and it comes to an end on every document.
-/

namespace ServiceIdl

/-- The services with other names than the visited ones. -/
def servicesOutside (visited : List String) (services : List Service) : List Service :=
  services.filter (·.name ∉ visited)

variable {services : List Service} {name other : String} {service : Service}

/-! ### Looking for names -/

/-- A name is found among some services, chosen by their names, if it is among the chosen ones. -/
theorem find?_filter_name (p : String → Bool) (services : List Service) (name : String) :
    (services.filter fun service => p service.name).find? (·.name = name) =
      if p name then services.find? (·.name = name) else none := by
  rw [List.find?_filter]
  cases hp : p name with
  | true =>
    rw [if_pos rfl]
    congr 1
    funext service
    by_cases hname : service.name = name <;> simp [hname, hp]
  | false =>
    rw [if_neg Bool.false_ne_true, List.find?_eq_none]
    intro service _ hservice
    simp only [decide_eq_true_eq] at hservice
    obtain ⟨hp', rfl⟩ := hservice
    rw [hp] at hp'
    cases hp'

theorem find?_servicesOutside (visited : List String) (services : List Service) (name : String) :
    (servicesOutside visited services).find? (·.name = name) =
      if name ∈ visited then none else services.find? (·.name = name) := by
  have hfilter := find?_filter_name (fun name => decide (name ∉ visited)) services name
  rw [servicesOutside, hfilter]
  by_cases hname : name ∈ visited <;> simp [hname]

theorem find?_of_find?_servicesOutside {visited : List String}
    (h : (servicesOutside visited services).find? (·.name = name) = some service) :
    services.find? (·.name = name) = some service := by
  rw [find?_servicesOutside] at h
  split at h
  · cases h
  · exact h

theorem servicesExcept_eq_servicesOutside (name : String) (services : List Service) :
    servicesExcept name services = servicesOutside [name] services := by
  simp [servicesExcept, servicesOutside]

/-- Names are visited one after the other. -/
theorem servicesOutside_servicesExcept (visited : List String) (name : String)
    (services : List Service) :
    servicesOutside visited (servicesExcept name services) =
      servicesOutside (name :: visited) services := by
  rw [servicesExcept, servicesOutside, servicesOutside, List.filter_filter]
  congr 1
  funext service
  simp [Bool.and_comm]

theorem name_of_find? (h : services.find? (·.name = name) = some service) :
    service.name = name := by
  simpa using List.find?_some h

/-! ### Chains -/

/-- What follows a service in a chain: the chain of its parent, if it has one. -/
def parentChain (services : List Service) (service : Service) : List Service :=
  match service.parent with
  | none => []
  | some parent => extendsChain (servicesExcept service.name services) parent

theorem extendsChain_nil (h : services.find? (·.name = name) = none) :
    extendsChain services name = [] := by
  rw [extendsChain]
  split
  · rfl
  · next hfound =>
    rw [h] at hfound
    cases hfound

/-- A chain starts with the first service of the name. -/
theorem extendsChain_cons (h : services.find? (·.name = name) = some service) :
    extendsChain services name = service :: parentChain services service := by
  rw [extendsChain]
  split
  · next hfound =>
    rw [h] at hfound
    cases hfound
  · next found hfound =>
    obtain rfl := Option.some.inj (h.symm.trans hfound)
    rw [parentChain, name_of_find? h]
    cases service.parent <;> rfl

theorem head?_extendsChain (services : List Service) (name : String) :
    (extendsChain services name).head? = services.find? (·.name = name) := by
  cases h : services.find? (·.name = name) with
  | none => rw [extendsChain_nil h, List.head?_nil]
  | some service => rw [extendsChain_cons h, List.head?_cons]

theorem extendsChain_eq_nil_iff :
    extendsChain services name = [] ↔ services.find? (·.name = name) = none := by
  rw [← head?_extendsChain, List.head?_eq_none_iff]

/-- Every service of a chain is the first one of its name. -/
theorem find?_of_mem_extendsChain (h : service ∈ extendsChain services name) :
    services.find? (·.name = service.name) = some service := by
  fun_induction extendsChain services name with
  | case1 services name hfound => simp at h
  | case2 services name found hfound hparent =>
    obtain rfl := List.mem_singleton.1 h
    rwa [name_of_find? hfound]
  | case3 services name found hfound parent hparent ih =>
    rcases List.mem_cons.1 h with rfl | h
    · rwa [name_of_find? hfound]
    · have hfirst := ih h
      rw [servicesExcept_eq_servicesOutside] at hfirst
      exact find?_of_find?_servicesOutside hfirst

/-- No name occurs twice in a chain. -/
theorem nodup_extendsChain (services : List Service) (name : String) :
    ((extendsChain services name).map (·.name)).Nodup := by
  fun_induction extendsChain services name with
  | case1 services name hfound => exact List.nodup_nil
  | case2 services name found hfound hparent => exact List.nodup_singleton _
  | case3 services name found hfound parent hparent ih =>
    rw [List.map_cons, List.nodup_cons]
    refine ⟨fun hmem => ?_, ih⟩
    obtain ⟨service, hservice, hname⟩ := List.mem_map.1 hmem
    have hfirst := find?_of_mem_extendsChain hservice
    rw [servicesExcept_eq_servicesOutside, find?_servicesOutside, if_pos] at hfirst
    · cases hfirst
    · rw [hname, name_of_find? hfound]
      exact List.mem_singleton_self name

/-- Behind some services of a chain follows a chain among the services with other names. -/
theorem drop_extendsChain {index : Nat}
    (h : (extendsChain services name)[index]? = some service) :
    (extendsChain services name).drop index =
      extendsChain (servicesOutside (((extendsChain services name).take index).map (·.name))
        services) service.name := by
  induction index generalizing services name with
  | zero =>
    have hnone : servicesOutside [] services = services := by simp [servicesOutside]
    rw [← List.head?_eq_getElem?, head?_extendsChain] at h
    rw [List.drop_zero, List.take_zero, List.map_nil, hnone, name_of_find? h]
  | succ index ih =>
    cases hfound : services.find? (·.name = name) with
    | none =>
      rw [extendsChain_nil hfound] at h
      cases h
    | some first =>
      rw [extendsChain_cons hfound] at h ⊢
      rw [List.getElem?_cons_succ] at h
      rw [List.drop_succ_cons, List.take_succ_cons, List.map_cons,
        ← servicesOutside_servicesExcept]
      rw [parentChain] at h ⊢
      split at h
      · cases h
      · exact ih h

/-- Behind a service of a chain follows the chain of its parent among the services with names other
than its own and those in front of it. -/
theorem drop_succ_extendsChain {index : Nat}
    (h : (extendsChain services name)[index]? = some service) :
    (extendsChain services name).drop (index + 1) =
      parentChain (servicesOutside (((extendsChain services name).take index).map (·.name))
        services) service := by
  have hdrop := drop_extendsChain h
  rw [← List.tail_drop, hdrop, extendsChain_cons, List.tail_cons]
  rw [← head?_extendsChain, ← hdrop, List.head?_drop, h]

theorem servicesExcept_filter_name (p : String → Bool) (name : String) (services : List Service) :
    servicesExcept name (services.filter fun service => p service.name) =
      (servicesExcept name services).filter fun service => p service.name := by
  rw [servicesExcept, servicesExcept, List.filter_filter, List.filter_filter]
  congr 1
  funext service
  exact Bool.and_comm ..

/-- Among services that are chosen by their names, a chain may end earlier but goes no other way. -/
theorem extendsChain_filter_isPrefix (p : String → Bool) (services : List Service)
    (name : String) :
    extendsChain (services.filter fun service => p service.name) name <+:
      extendsChain services name := by
  fun_induction extendsChain services name with
  | case1 services name hfound =>
    have hnil : extendsChain (services.filter fun service => p service.name) name = [] :=
      extendsChain_nil (by rw [find?_filter_name, hfound, ite_self])
    exact hnil ▸ List.nil_prefix
  | case2 services name found hfound hparent =>
    cases hp : p name with
    | false =>
      rw [extendsChain_nil (by rw [find?_filter_name, hp, if_neg Bool.false_ne_true])]
      exact List.nil_prefix
    | true =>
      have hlast : extendsChain (services.filter fun service => p service.name) name = [found] := by
        rw [extendsChain_cons (by rw [find?_filter_name, hp, if_pos rfl, hfound]), parentChain,
          hparent]
      exact hlast ▸ List.prefix_rfl
  | case3 services name found hfound parent hparent ih =>
    cases hp : p name with
    | false =>
      rw [extendsChain_nil (by rw [find?_filter_name, hp, if_neg Bool.false_ne_true])]
      exact List.nil_prefix
    | true =>
      rw [extendsChain_cons (by rw [find?_filter_name, hp, if_pos rfl, hfound]), parentChain,
        hparent, List.prefix_cons_inj]
      dsimp only
      rwa [servicesExcept_filter_name, name_of_find? hfound]

/-! ### Documents -/

namespace Document

/-- From the first service of a name on, each service is followed by the first one of the name that
it extends. No name occurs twice, and the last service extends nothing, or nothing that is in the
document, or a service that is listed already. -/
structure FollowsParents (doc : Document) (name : String) (chain : List Service) : Prop where
  head : chain.head? = doc.findService? name
  link : ∀ index service next, chain[index]? = some service → chain[index + 1]? = some next →
    ∃ parent, service.parent = some parent ∧ doc.findService? parent = some next
  distinct : (chain.map (·.name)).Nodup
  stop : ∀ service, chain.getLast? = some service → ∀ parent, service.parent = some parent →
    doc.findService? parent = none ∨ parent ∈ chain.map (·.name)

variable (doc : Document)

theorem length_serviceChain_le : (doc.serviceChain name).length ≤ doc.services.length := by
  have hnodup := (nodup_extendsChain doc.services name).of_map
  refine (List.subperm_of_subset hnodup fun service hservice => ?_).length_le
  exact List.mem_of_find?_eq_some (find?_of_mem_extendsChain hservice)

theorem serviceChain_eq_nil_iff :
    doc.serviceChain name = [] ↔ ∀ service ∈ doc.services, service.name ≠ name := by
  rw [serviceChain, extendsChain_eq_nil_iff, List.find?_eq_none]
  simp only [decide_eq_true_eq, ne_eq]

theorem link_serviceChain {index : Nat} {next : Service}
    (h : (doc.serviceChain name)[index]? = some service)
    (hnext : (doc.serviceChain name)[index + 1]? = some next) :
    ∃ parent, service.parent = some parent ∧ doc.findService? parent = some next := by
  rw [serviceChain] at h hnext
  rw [← List.head?_drop, drop_succ_extendsChain h, parentChain] at hnext
  split at hnext
  · cases hnext
  · next parent hparent =>
    rw [head?_extendsChain, servicesExcept_eq_servicesOutside] at hnext
    refine ⟨parent, hparent, ?_⟩
    exact find?_of_find?_servicesOutside (find?_of_find?_servicesOutside hnext)

/-- The last service of a chain has no parent, or none that could follow. -/
theorem stop_serviceChain (h : (doc.serviceChain name).getLast? = some service) {parent : String}
    (hparent : service.parent = some parent) :
    doc.findService? parent = none ∨ parent ∈ (doc.serviceChain name).map (·.name) := by
  have hmem := List.mem_of_getLast? h
  rw [serviceChain] at h hmem ⊢
  rw [List.getLast?_eq_getElem?] at h
  have hdrop := drop_succ_extendsChain h
  have hlength := List.length_pos_of_mem hmem
  rw [List.drop_of_length_le (by omega), parentChain, hparent] at hdrop
  have hnone := extendsChain_eq_nil_iff.1 hdrop.symm
  rw [servicesExcept_eq_servicesOutside, find?_servicesOutside, find?_servicesOutside] at hnone
  split at hnone
  · next hself =>
    rw [List.mem_singleton.1 hself]
    exact .inr (List.mem_map_of_mem hmem)
  · split at hnone
    · next hvisited =>
      obtain ⟨earlier, hearlier, heq⟩ := List.mem_map.1 hvisited
      exact .inr (List.mem_map.2 ⟨earlier, List.mem_of_mem_take hearlier, heq⟩)
    · exact .inl hnone

/-- The chain of a service in a chain goes on in the same way, and at least as far. -/
theorem drop_serviceChain_isPrefix {index : Nat}
    (h : (doc.serviceChain name)[index]? = some service) :
    (doc.serviceChain name).drop index <+: doc.serviceChain service.name := by
  have hdrop : (doc.serviceChain name).drop index = _ := drop_extendsChain h
  rw [hdrop]
  exact extendsChain_filter_isPrefix (fun name => decide (name ∉ _)) doc.services service.name

/-- On every document, also where names are missing, occur twice or extend each other in circles, a
chain of services is finite and goes from child to parent as long as it can. It is no longer than
the list of services, it is empty exactly if no service has the name, and each part of it is what
the chain of its own first service starts with. -/
theorem serviceChain_follows_parents (doc : Document) (name : String) :
    (doc.serviceChain name).length ≤ doc.services.length ∧
    (doc.serviceChain name = [] ↔ ∀ service ∈ doc.services, service.name ≠ name) ∧
    doc.FollowsParents name (doc.serviceChain name) ∧
    ∀ index service, (doc.serviceChain name)[index]? = some service →
      (doc.serviceChain name).drop index <+: doc.serviceChain service.name := by
  refine ⟨doc.length_serviceChain_le, doc.serviceChain_eq_nil_iff, ?_,
    fun index service h => doc.drop_serviceChain_isPrefix h⟩
  exact {
    head := head?_extendsChain doc.services name
    link := fun index service next h hnext => doc.link_serviceChain h hnext
    distinct := nodup_extendsChain doc.services name
    stop := fun service h parent hparent => doc.stop_serviceChain h hparent }

end Document

end ServiceIdl
