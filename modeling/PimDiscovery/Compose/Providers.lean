import PimDiscovery.Compose.Config

/-! The fixed provider rules. -/

namespace PimDiscovery

def googleAuthorizationEndpoint : String := "https://accounts.google.com/o/oauth2/v2/auth"
def googleTokenEndpoint : String := "https://oauth2.googleapis.com/token"

def microsoftAuthorizationEndpoint : String :=
  "https://login.microsoftonline.com/common/oauth2/v2.0/authorize"
def microsoftTokenEndpoint : String := "https://login.microsoftonline.com/common/oauth2/v2.0/token"
def microsoftDeviceAuthorizationEndpoint : String :=
  "https://login.microsoftonline.com/common/oauth2/v2.0/devicecode"
def microsoftGraphUrl : String := "https://graph.microsoft.com/v1.0/"

def providerConfig (provider : DiscoveryKnownProvider) (email : String) (service : DiscoveryService)
    (endpoint : DiscoveryEndpoint) (auth : List DiscoveryAuthMethod) : DiscoveryServiceConfig :=
  { service, endpoint, username := some email, auth, source := .provider provider, resolved := false }

def googleOauth (scope : String) : DiscoveryAuthMethod :=
  .oauthAuthorizationCodeGrant googleAuthorizationEndpoint googleTokenEndpoint (some scope) none []

def googleConfigs (email : String) : List DiscoveryServiceConfig :=
  let mailAuth := [googleOauth "https://mail.google.com/", .password]
  let config := providerConfig .google email
  [config .imap (.tcp "imap.gmail.com" 993 .tls) mailAuth,
    config .pop3 (.tcp "pop.gmail.com" 995 .tls) mailAuth,
    config .smtp (.tcp "smtp.gmail.com" 465 .tls) mailAuth,
    config .caldav
      (.http ("https://apidata.googleusercontent.com/caldav/v2/" ++ (email ++ "/user")))
      [googleOauth "https://www.googleapis.com/auth/calendar"],
    config .carddav
      (.http ("https://www.googleapis.com/carddav/v1/principals/" ++ (email ++ "/")))
      [googleOauth "https://www.googleapis.com/auth/carddav"],
    config .gmail (.http "https://gmail.googleapis.com/") [googleOauth "https://mail.google.com/"],
    config .gcal (.http "https://www.googleapis.com/calendar/v3/")
      [googleOauth "https://www.googleapis.com/auth/calendar"],
    config .gpeople (.http "https://people.googleapis.com/")
      [googleOauth "https://www.googleapis.com/auth/contacts"]]

def microsoftAuth (scope : String) : List DiscoveryAuthMethod :=
  let scope := some (scope ++ " offline_access")
  [.oauthAuthorizationCodeGrant microsoftAuthorizationEndpoint microsoftTokenEndpoint scope none [],
    .oauthDeviceAuthorizationGrant microsoftDeviceAuthorizationEndpoint microsoftTokenEndpoint scope
      none []]

def microsoftConfigs (email : String) : List DiscoveryServiceConfig :=
  let config := providerConfig .microsoft email
  let graph service scope := config service (.http microsoftGraphUrl) (microsoftAuth scope)
  [config .imap (.tcp "outlook.office365.com" 993 .tls)
      (microsoftAuth "https://outlook.office.com/IMAP.AccessAsUser.All"),
    config .pop3 (.tcp "outlook.office365.com" 995 .tls)
      (microsoftAuth "https://outlook.office.com/POP.AccessAsUser.All"),
    config .smtp (.tcp "smtp.office365.com" 587 .starttls)
      (microsoftAuth "https://outlook.office.com/SMTP.Send"),
    graph .msgraph "Mail.ReadWrite Mail.Send",
    graph .msgraphCalendar "Calendars.ReadWrite",
    graph .msgraphContacts "Contacts.ReadWrite"]

namespace DiscoveryKnownProvider

@[irreducible] def fromDomain (domain : String) : Option DiscoveryKnownProvider :=
  if ["gmail.com", "googlemail.com"].any (Text.eqIgnoreAsciiCase domain) then some .google
  else if Text.eqIgnoreAsciiCase domain "msn.com" then some .microsoft
  else
    let label := (Text.split domain '.').headD domain
    if ["outlook", "hotmail", "live"].any (Text.eqIgnoreAsciiCase label) then some .microsoft
    else none

def fromMx (exchange : String) : Option DiscoveryKnownProvider :=
  let host := Text.toAsciiLowercase (Text.trimEndMatches exchange '.')
  if [".google.com", ".googlemail.com"].any (Text.endsWith host) then some .google
  else if Text.endsWith host ".protection.outlook.com" then some .microsoft
  else none

def configs (self : DiscoveryKnownProvider) (email : String) : List DiscoveryServiceConfig :=
  match self with
  | google => googleConfigs email
  | microsoft => microsoftConfigs email

end DiscoveryKnownProvider
end PimDiscovery
