import Wiring.TypeName

/-!
# Types of the target framework

Names of the framework types that generated code refers to.
-/

namespace Wiring
namespace Framework

/-- Interface of bootstrap classes. -/
def contextInitializer : TypeName := ⟨"org.springframework.context.ApplicationContextInitializer"⟩

/-- Context in which components are registered. -/
def genericContext : TypeName :=
  ⟨"org.springframework.context.support.GenericApplicationContext"⟩

/-- Annotation on overriding methods. -/
def override : TypeName := ⟨"java.lang.Override"⟩

/-- Interface that holds the constants of roles. -/
def beanDefinition : TypeName := ⟨"org.springframework.beans.factory.config.BeanDefinition"⟩

/-- Helper that calls constructors reflectively. -/
def beanUtils : TypeName := ⟨"org.springframework.beans.BeanUtils"⟩

/-- Helper that finds and calls members reflectively. -/
def reflectionUtils : TypeName := ⟨"org.springframework.util.ReflectionUtils"⟩

/-- Annotation that marks the constructor to use. -/
def autowired : TypeName := ⟨"org.springframework.beans.factory.annotation.Autowired"⟩

/-- Parameter types filled with the environment. -/
def environmentTypes : List TypeName :=
  [⟨"org.springframework.core.env.Environment"⟩,
    ⟨"org.springframework.core.env.ConfigurableEnvironment"⟩]

/-- Parameter types filled with the context itself. -/
def contextTypes : List TypeName :=
  [⟨"org.springframework.context.ApplicationContext"⟩,
    ⟨"org.springframework.context.ConfigurableApplicationContext"⟩,
    genericContext,
    ⟨"org.springframework.beans.factory.BeanFactory"⟩,
    ⟨"org.springframework.beans.factory.ListableBeanFactory"⟩,
    ⟨"org.springframework.core.io.ResourceLoader"⟩]

/-- Resolver of autowiring candidates. -/
def candidateResolver : TypeName :=
  ⟨"org.springframework.context.annotation.ContextAnnotationAutowireCandidateResolver"⟩

/-- Property source read from a resource. -/
def resourcePropertySource : TypeName :=
  ⟨"org.springframework.core.io.support.ResourcePropertySource"⟩

/-- Static registry of factories. -/
def staticFactories : TypeName := ⟨"org.springframework.aot.StaticSpringFactories"⟩

/-- Factories key of test execution listeners. -/
def testExecutionListener : TypeName :=
  ⟨"org.springframework.test.context.TestExecutionListener"⟩

/-- Component that registers event listeners. -/
def eventListenerRegistrar : TypeName :=
  ⟨"org.springframework.aot.context.event.EventListenerRegistrar"⟩

/-- Description of one event listener method. -/
def eventListenerMetadata : TypeName :=
  ⟨"org.springframework.aot.context.event.EventListenerMetadata"⟩

/-- Lists. -/
def list : TypeName := ⟨"java.util.List"⟩

end Framework
end Wiring
