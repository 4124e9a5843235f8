import PageObjects.Script.Chain

namespace PageObjects

def navigationVerbs : List Text := ["goto", "goBack", "goForward", "reload"]

def waitVerbs : List Text := [
  "waitForURL", "waitForTimeout", "waitForLoadState", "waitForSelector", "waitForResponse",
  "waitForRequest", "waitForNavigation", "waitForFunction"]

def interactionVerbs : List Text := [
  "click", "dblclick", "fill", "type", "pressSequentially", "press", "check", "uncheck",
  "setChecked", "selectOption", "selectText", "hover", "focus", "blur", "clear", "setInputFiles",
  "dragTo", "dragAndDrop", "tap", "scrollIntoViewIfNeeded", "dispatchEvent"]

def queryVerbs : List Text := [
  "textContent", "innerText", "innerHTML", "inputValue", "getAttribute", "isVisible", "isHidden",
  "isEnabled", "isDisabled", "isChecked", "isEditable", "count", "all", "allTextContents",
  "allInnerTexts", "boundingBox", "title", "url", "content", "screenshot", "evaluate",
  "evaluateAll", "pause", "setViewportSize"]

/-- Steps that belong to a locator and not to what is done with it. -/
def locatorAccessors : List Text := [
  "locator", "getByRole", "getByText", "getByTestId", "getByPlaceholder", "getByLabel",
  "getByAltText", "getByTitle", "frameLocator", "contentFrame", "nth", "first", "last", "filter",
  "and", "or"]

def isAccessor (s : Segment) : Bool := locatorAccessors.contains s.name

/-- Page calls whose first argument is a selector. -/
def selectorFirstVerbs : List Text := [
  "click", "dblclick", "fill", "type", "press", "check", "uncheck", "selectOption", "hover",
  "focus", "tap", "setInputFiles", "dispatchEvent", "waitForSelector", "textContent", "innerText",
  "innerHTML", "inputValue", "getAttribute", "isVisible", "isHidden", "isEnabled", "isDisabled",
  "isChecked", "isEditable"]

/-- Names of browser contexts, which open pages. -/
def contextNames : List Text := ["context", "browserContext"]

end PageObjects
