import PimDiscovery.Text

/-! The autoconfig document. -/

namespace PimDiscovery

inductive DiscoveryServerType where
  | pop3 | imap | smtp
  deriving DecidableEq, Repr

inductive DiscoverySecurityType where
  | plain | starttls | tls
  deriving DecidableEq, Repr

inductive DiscoveryAuthenticationType where
  | passwordCleartext | passwordEncrypted | ntlm | gsApi | clientIPAddress | tlsClientCert | oAuth2
  | none
  deriving DecidableEq, Repr

structure DiscoveryCheckInterval where
  minutes : Option UInt64
  deriving DecidableEq, Repr

structure DiscoveryPop3Config where
  leaveMessagesOnServer : Option Bool
  downloadOnBiff : Option Bool
  daysToLeaveMessagesOnServer : Option UInt64
  checkInterval : Option DiscoveryCheckInterval
  deriving DecidableEq, Repr

structure DiscoveryServer where
  type : DiscoveryServerType
  hostname : Option String
  port : Option UInt16
  socketType : Option DiscoverySecurityType
  username : Option String
  authentication : List DiscoveryAuthenticationType
  pop3 : Option DiscoveryPop3Config
  deriving DecidableEq, Repr

structure DiscoveryDescription where
  lang : Option String
  text : String
  deriving DecidableEq, Repr

structure DiscoveryDocumentation where
  url : String
  descriptions : List DiscoveryDescription
  deriving DecidableEq, Repr

structure DiscoveryEmailProvider where
  id : String
  domain : List String
  displayName : Option String
  displayShortName : Option String
  incomingServer : List DiscoveryServer
  outgoingServer : List DiscoveryServer
  documentation : List DiscoveryDocumentation
  deriving DecidableEq, Repr

structure DiscoveryOAuth2Config where
  issuer : String
  scope : String
  authUrl : String
  tokenUrl : String
  deriving DecidableEq, Repr

structure DiscoveryAutoconfig where
  version : String
  emailProvider : DiscoveryEmailProvider
  oauth2 : Option DiscoveryOAuth2Config
  deriving DecidableEq, Repr

end PimDiscovery
